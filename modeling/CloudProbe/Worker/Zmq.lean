import CloudProbe.Lib.Bytes
import CloudProbe.Worker.OutputBase

/-!
# The zmq output

* **Records** (`zmqDataRecord`, `zmqHeartbeatRecord`): the bytes one packet or one heartbeat adds to
  the batch.
* **The output** (`ZmqOutput`): `buf` holds the bytes of `pkts_buf.buf` after the batch header,
  which is written in front when the batch is flushed. Bytes past `batch_bufpos` are never sent, so
  a write drops what stood after it.
* **Calls** (`zmqSendPacket`, `zmqHeartbeat`, `zmqOutputDestroy`) with the flush they share
  (`zmqFlushPacket`). `wire` lists the messages given to `zmq_send`, each with its result.

The texts of the error log are left out; the numbers it prints are kept (`ZmqErrorInfo`).

Sources without a file are in `output_zmq.c`.
-/

namespace CloudProbe.Worker

open Lib

/-! ## Records -/

def zmqMaxFrameLen : ℕ := 65531

def zmqMaxBatchBufSize : ℕ := 1048576

def zmqPktsFlushMaxDurSec : ℤ := 1

def zmqPktsFlushMaxNum : UInt16 := 65535

def zmqBatchPktsVersion : ℕ := 2

def zmqHeartbeatEtherType : ℕ := 0xFFFF

/-- `ETHER_TYPE_MPLS`.
Source: `mpls.h` -/
def etherTypeMpls : ℕ := 0x8847

/-- `sizeof(mpls_header)`. -/
def mplsHeaderLen : ℕ := 4

/-- `sizeof(zmq_pkt_batch_hdr_t)`. -/
def zmqBatchHdrLen : ℕ := 24

/-- The length field and the packet header in front of each frame:
`ZMQ_PKT_DATA_LEN_SIZE + sizeof(zmq_pkt_hdr_t)`. -/
def zmqRecordHdrLen : ℕ := 2 + 16

/-- The loop over the VLAN tags: `rest` are the captured bytes from `offset` on.
Source: `l2_header_len` -/
def vlanStackEnd (etherType offset : ℕ) (rest : List UInt8) : ℕ :=
  if isVlanEthertype etherType then
    match rest with
    | _ :: _ :: t₁ :: t₂ :: rest => vlanStackEnd (ofBe [t₁, t₂]) (offset + 4) rest
    | _ => 0
  else offset

/-- The length of the Ethernet header and the whole VLAN tag stack, or 0 when the captured data ends
before that stack does.
Source: `l2_header_len` -/
def l2HeaderLen (data : List UInt8) (caplen : ℕ) : ℕ :=
  if caplen < etherHeaderLen then 0
  else vlanStackEnd (ofBe ((data.drop 12).take 2)) etherHeaderLen
    ((data.take caplen).drop etherHeaderLen)

/-- The label that carries the direction and the low 12 bits of the service tag, as its four bytes
on a little-endian host.
Source: `make_mpls_hdr`, `mpls.h` -/
def makeMplsHdr (direct : PktDir) (serviceTag : UInt16) : List UInt8 :=
  [UInt8.ofNat ((direct.toInt % 16).toNat * 8 + 128), UInt8.ofNat (serviceTag.toNat / 16),
    UInt8.ofNat (serviceTag.toNat % 16 * 16 + 1), 0xff]

/-- `zmq_pkt_hdr_t` on the wire; `caplen` and `len` are taken modulo 2^32.
Source: `output_zmq.h` -/
def zmqPktHdr (ts : Timeval) (caplen len : ℕ) : List UInt8 :=
  be 4 (UInt32.ofInt ts.sec).toNat ++ be 4 (UInt32.ofInt ts.usec).toNat ++ be 4 caplen ++ be 4 len

/-- The frame of a data record: the type field in front of the payload becomes MPLS, and the label
is put between the headers and the payload.
Source: `zmq_send_packet` -/
def zmqFrame (serviceTag : UInt16) (data : List UInt8) (direct : PktDir) (l2Len frameLen : ℕ) :
    List UInt8 :=
  let vlanTotalSize := l2Len - etherHeaderLen
  let headers :=
    if vlanTotalSize = 0 then data.take 12 ++ be 2 etherTypeMpls
    else data.take etherHeaderLen ++
      patch ((data.drop etherHeaderLen).take vlanTotalSize) (vlanTotalSize - 2) (be 2 etherTypeMpls)
  headers ++ makeMplsHdr direct serviceTag ++ (data.drop l2Len).take (frameLen - l2Len)

/-- The length of the layer-2 headers of a packet, as far as it fits a record.
Source: `zmq_send_packet`, `l2_len` -/
def zmqL2Len (p : Packet) : ℕ :=
  l2HeaderLen p.data (outputFrameLen p.hdr.caplen 0 zmqMaxFrameLen)

/-- The frame bytes a record carries: `slice` never cuts into the layer-2 headers.
Source: `zmq_send_packet`, `frame_len` -/
def zmqFrameLen (slice : ℤ) (p : Packet) : ℕ :=
  let frameLen := outputFrameLen p.hdr.caplen slice zmqMaxFrameLen
  if frameLen < zmqL2Len p then zmqL2Len p else frameLen

/-- The `uint16_t` length of a record, with the label.
Source: `zmq_send_packet`, `record_len` -/
def zmqRecordLen (slice : ℤ) (p : Packet) : ℕ := (zmqFrameLen slice p + mplsHeaderLen) % 2 ^ 16

/-- Source: `zmq_send_packet` -/
def zmqDataRecord (serviceTag : UInt16) (slice : ℤ) (h : Handed) : List UInt8 :=
  be 2 (zmqRecordLen slice h.packet) ++
    zmqPktHdr h.packet.hdr.ts (zmqRecordLen slice h.packet)
      (h.packet.hdr.len.toNat + mplsHeaderLen) ++
    zmqFrame serviceTag h.packet.data h.direct (zmqL2Len h.packet) (zmqFrameLen slice h.packet)

/-- Source: `zmq_send_heartbeat_packet` -/
def zmqHeartbeatRecord (tv : Timeval) : List UInt8 :=
  be 2 etherHeaderLen ++ zmqPktHdr tv etherHeaderLen etherHeaderLen ++
    (List.replicate 12 0 ++ be 2 zmqHeartbeatEtherType)

/-! ## The output -/

/-- `zmq_options_t`, with the UUID as its 16 bytes. The address and the high-water mark only matter
to the socket.
Source: `output_zmq.h` -/
structure ZmqOptions where
  serviceTag : UInt32
  uuid : List UInt8
  uuid_length : uuid.length = 16
  rateLimitMbps : UInt64
  slice : ℤ
  heartbeatMs : ℤ
deriving DecidableEq

/-- `error_info`, without the text of the first error.
Source: `output_zmq.h` -/
structure ZmqErrorInfo where
  firstPktsec : ℤ
  nbDropPackets : UInt64
  nbDropBatches : UInt64
  nbTooSmallPackets : UInt64
deriving DecidableEq

/-- `zmq_output_t` with its `pkts_buf`.
Source: `output_zmq.h` -/
structure ZmqOutput where
  stats : OutputStats
  rateLimitMbps : UInt64
  throttle : TokenBucket
  slice : ℤ
  serviceTag : UInt16
  /-- `batch_hdr.keybit` -/
  keybit : UInt32
  /-- `batch_hdr.uuid` -/
  uuid : List UInt8
  /-- `batch_hdr.pkts_num` -/
  pktsNum : UInt16
  /-- the bytes of `pkts_buf.buf` after the batch header -/
  buf : List UInt8
  batchBufpos : ℕ
  firstPktsec : ℤ
  heartbeatNum : UInt16
  dataBytes : UInt32
  heartbeatMs : ℤ
  lastPktTv : Timeval
  errorInfo : ZmqErrorInfo
  /-- the messages given to `zmq_send`, with whether it took them -/
  wire : List (List UInt8 × Bool)
  /-- how often `gettimeofday` was called -/
  clockReads : ℕ
deriving DecidableEq

def zmqOutputNew (env : Env) (opts : ZmqOptions) (stats : OutputStats) : ZmqOutput where
  stats := stats
  rateLimitMbps := opts.rateLimitMbps
  throttle := throttleNew opts.rateLimitMbps
  slice := opts.slice
  serviceTag := opts.serviceTag.toUInt16
  keybit := opts.serviceTag
  uuid := opts.uuid
  pktsNum := 0
  buf := []
  batchBufpos := zmqBatchHdrLen
  firstPktsec := 0
  heartbeatNum := 0
  dataBytes := 0
  heartbeatMs := opts.heartbeatMs
  lastPktTv := env.gettimeofday 0
  errorInfo := ⟨0, 0, 0, 0⟩
  wire := []
  clockReads := 1

/-- `batch_hdr` on the wire.
Source: `output_zmq.h` `zmq_pkt_batch_hdr_t` -/
def zmqBatchHdr (pktsNum : ℕ) (keybit : UInt32) (uuid : List UInt8) : List UInt8 :=
  be 2 zmqBatchPktsVersion ++ be 2 pktsNum ++ be 4 keybit.toNat ++ uuid

/-- Source: `flush_error_info` -/
def ZmqErrorInfo.flush (_ : ZmqErrorInfo) : ZmqErrorInfo := ⟨0, 0, 0, 0⟩

/-- The error log is written when it is more than `ERROR_INFO_FLUSH_MAX_DUR_SEC` old.
Source: `zmq_flush_packet`, "check error_info" -/
def ZmqErrorInfo.check (info : ZmqErrorInfo) (pktsec : ℤ) : ZmqErrorInfo :=
  if info.firstPktsec = 0 then { info with firstPktsec := pktsec }
  else if info.firstPktsec + 5 < pktsec then { info.flush with firstPktsec := pktsec }
  else info

def zmqFlushPacket (env : Env) (o : ZmqOutput) : ZmqOutput :=
  let message := zmqBatchHdr o.pktsNum.toNat o.keybit o.uuid ++
    o.buf.take (o.batchBufpos - zmqBatchHdrLen)
  let info := o.errorInfo.check o.firstPktsec
  let dataNum := o.pktsNum - o.heartbeatNum
  let sent := env.zmqSend o.wire.length
  { o with
    stats :=
      if sent then
        (o.stats.count .fwd o.dataBytes.toUInt64 dataNum.toUInt64).countHeartbeats
          o.heartbeatNum.toUInt64
      else o.stats.count .errorDrop o.dataBytes.toUInt64 dataNum.toUInt64
    errorInfo :=
      if sent then info
      else { info with
        nbDropBatches := info.nbDropBatches + 1
        nbDropPackets := info.nbDropPackets + dataNum.toUInt64 }
    wire := o.wire ++ [(message, sent)]
    firstPktsec := 0
    batchBufpos := zmqBatchHdrLen
    pktsNum := 0
    heartbeatNum := 0
    dataBytes := 0 }

def zmqFlushIfStale (env : Env) (o : ZmqOutput) (now : ℤ) : ZmqOutput :=
  if 0 < o.pktsNum ∧ o.firstPktsec ≠ 0 ∧ o.firstPktsec + zmqPktsFlushMaxDurSec < now then
    zmqFlushPacket env o
  else o

/-- The writes of a record at `batch_bufpos`, which moves behind it. -/
def zmqAppend (o : ZmqOutput) (record : List UInt8) : ZmqOutput :=
  { o with
    buf := o.buf.take (o.batchBufpos - zmqBatchHdrLen) ++ record
    batchBufpos := o.batchBufpos + record.length
    pktsNum := o.pktsNum + 1 }

/-- The time of the first record of the batch is set. -/
def ZmqOutput.startAt (o : ZmqOutput) (sec : ℤ) : ZmqOutput := { o with firstPktsec := sec }

/-- A record of time `sec` and length `recordLen` is about to be added: the batch is flushed first
when it holds too many records, is too old or has no room.
Source: `zmq_send_packet` -/
def zmqMakeRoom (env : Env) (o : ZmqOutput) (sec : ℤ) (recordLen : ℕ) : ZmqOutput :=
  let o := if o.pktsNum = 0 then o.startAt sec else o
  let isPktNumExceeded := zmqPktsFlushMaxNum ≤ o.pktsNum
  let isTimeDiffExceeded := o.firstPktsec ≠ 0 ∧ o.firstPktsec + zmqPktsFlushMaxDurSec < sec
  let isBufferFull := zmqMaxBatchBufSize < o.batchBufpos + zmqRecordHdrLen + recordLen
  let o :=
    if isPktNumExceeded ∨ isTimeDiffExceeded ∨ isBufferFull then
      (zmqFlushPacket env o).startAt sec
    else o
  if o.firstPktsec = 0 then o.startAt sec else o

/-- The packet passed the checks: its record joins the batch.
Source: `zmq_send_packet`, second half -/
def zmqAddPacket (env : Env) (o : ZmqOutput) (h : Handed) : ZmqOutput :=
  let ts := h.packet.hdr.ts
  let o := zmqMakeRoom env o ts.sec (zmqRecordLen o.slice h.packet)
  let o := zmqAppend o (zmqDataRecord o.serviceTag o.slice h)
  { o with
    dataBytes := o.dataBytes + UInt32.ofNat (zmqFrameLen o.slice h.packet)
    lastPktTv := ts }

def zmqSendPacket (env : Env) (o : ZmqOutput) (h : Handed) : ZmqOutput × ℤ :=
  let ts := h.packet.hdr.ts
  if zmqL2Len h.packet = 0 then
    let o := { o with
      errorInfo := { o.errorInfo with nbTooSmallPackets := o.errorInfo.nbTooSmallPackets + 1 }
      stats := o.stats.count .errorDrop h.packet.hdr.caplen.toUInt64 1 }
    (zmqFlushIfStale env o ts.sec, -1)
  else
    let frameLen := zmqFrameLen o.slice h.packet
    let checked := passChecks o.rateLimitMbps o.throttle frameLen ts h.direct
    let o := { o with throttle := checked.1 }
    match checked.2 with
    | some bucket =>
      let o := { o with stats := o.stats.count bucket (UInt64.ofNat frameLen) 1 }
      (zmqFlushIfStale env o ts.sec, -1)
    | none => (zmqAddPacket env o h, 0)

def zmqSendHeartbeatPacket (env : Env) (o : ZmqOutput) (tv : Timeval) : ZmqOutput :=
  let o :=
    if zmqMaxBatchBufSize < o.batchBufpos + zmqRecordHdrLen + etherHeaderLen then
      zmqFlushPacket env o
    else o
  let o := if o.pktsNum = 0 then o.startAt tv.sec else o
  let o := zmqAppend o (zmqHeartbeatRecord tv)
  let o := zmqFlushPacket env { o with heartbeatNum := o.heartbeatNum + 1 }
  { o with lastPktTv := tv }

/-- Whether a heartbeat is due at the time `tv` that the clock shows.
Source: `zmq_heartbeat`, `elapsed_ms >= output->heartbeat_ms` -/
def ZmqOutput.heartbeatDue (o : ZmqOutput) (tv : Timeval) : Bool :=
  o.heartbeatMs ≤
    (tv.sec - o.lastPktTv.sec) * 1000 + (tv.usec - o.lastPktTv.usec).tdiv 1000

def zmqHeartbeat (env : Env) (o : ZmqOutput) (now : ℤ) : ZmqOutput :=
  let o := zmqFlushIfStale env o now
  if o.heartbeatMs ≤ 0 then o
  -- the clock is not read when a heartbeat is clearly not due yet
  else if (now - o.lastPktTv.sec) * 1000 < o.heartbeatMs - 1000 then o
  else
    let tv := env.gettimeofday o.clockReads
    let due := o.heartbeatDue tv
    let o := { o with clockReads := o.clockReads + 1 }
    if due then zmqSendHeartbeatPacket env o tv else o

def zmqOutputDestroy (env : Env) (o : ZmqOutput) : ZmqOutput :=
  if 0 < o.pktsNum then zmqFlushPacket env o else o

end CloudProbe.Worker
