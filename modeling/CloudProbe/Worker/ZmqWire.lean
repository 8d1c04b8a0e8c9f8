import CloudProbe.Tools.RecvZmq
import CloudProbe.Worker.ZmqBook

/-!
# The zmq wire format, from the output to a receiver

* **What arrives** (`ZmqOptions.received`): the packet that the reference decoder hands over for an
  item of a batch. `encodes_received` ties the record the output writes to it.
* **A receiver** (`isHeartbeat`, `recover`): how the wire format says a frame is read. It walks the
  VLAN types to the MPLS type and takes the label out (`labelOffset`).
* **Both VLAN walks agree** (`vlanStackEnd_walk`): the walk of the receiver over the rewritten frame
  ends where the walk of the output over the captured bytes ended.

Sources without a file are in `docs/ZMQ-WIRE-FORMAT.md`.
-/

namespace CloudProbe.Worker

open Lib Tools List

/-! ## What arrives -/

/-- A time as its two 32-bit fields carry it. -/
def wireTime (tv : Timeval) : Timeval := ⟨tv.sec % 2 ^ 32, tv.usec % 2 ^ 32⟩

def heartbeatFrame : List UInt8 := List.replicate 12 0 ++ be 2 zmqHeartbeatEtherType

def ZmqOptions.received (opts : ZmqOptions) : ZmqItem → Received
  | .inl h => {
      hdr := ⟨wireTime h.packet.hdr.ts, UInt32.ofNat (zmqRecordLen opts.slice h.packet),
        UInt32.ofNat (h.packet.hdr.len.toNat + mplsHeaderLen)⟩
      frame := zmqFrame opts.serviceTag.toUInt16 h.packet.data h.direct (zmqL2Len h.packet)
        (zmqFrameLen opts.slice h.packet) }
  | .inr tv => {
      hdr := ⟨wireTime tv, UInt32.ofNat etherHeaderLen, UInt32.ofNat etherHeaderLen⟩
      frame := heartbeatFrame }

theorem pcapHeader_zmqPktHdr (ts : Timeval) (caplen len : ℕ) :
    pcapHeader (zmqPktHdr ts caplen len) =
      ⟨wireTime ts, UInt32.ofNat caplen, UInt32.ofNat len⟩ := by
  have hsec : (UInt32.ofInt ts.sec).toNat < 256 ^ 4 := (UInt32.ofInt ts.sec).toNat_lt
  have husec : (UInt32.ofInt ts.usec).toNat < 256 ^ 4 := (UInt32.ofInt ts.usec).toNat_lt
  have hfield : ∀ n, UInt32.ofNat (n % 256 ^ 4) = UInt32.ofNat n := fun n =>
    UInt32.ofNat_mod_size
  simp only [pcapHeader, zmqPktHdr, be, cons_append, nil_append,
    take_succ_cons, take_zero, drop_succ_cons, drop_zero]
  have hread : ∀ n, ofBe [UInt8.ofNat (n / 256 ^ 3), UInt8.ofNat (n / 256 ^ 2),
      UInt8.ofNat (n / 256 ^ 1), UInt8.ofNat (n / 256 ^ 0)] = n % 256 ^ 4 := fun n => ofBe_be 4 n
  simp only [hread, hfield, Nat.mod_eq_of_lt hsec, Nat.mod_eq_of_lt husec, toNat_ofInt, wireTime]

variable {h : Handed} {batch : List ZmqItem} (opts : ZmqOptions)

theorem length_received_inl (hl2 : zmqL2Len h.packet ≠ 0) :
    (opts.received (.inl h)).frame.length = zmqRecordLen opts.slice h.packet := by
  obtain ⟨n, hvlan, -⟩ := zmqL2Len_bounds hl2
  obtain ⟨hframe, hdata, -⟩ := zmqFrameLen_bounds opts.slice hl2
  rw [zmqRecordLen_eq _ hl2]
  exact length_zmqFrame _ _ _ hvlan hframe hdata

/-- **Records.** The bytes the output writes for an item are a record of what arrives. -/
theorem encodes_received {x : ZmqItem} (hwhole : x.Whole) :
    Encodes (opts.encode x) (opts.received x) := by
  cases x with
  | inl h =>
    have hlen := length_received_inl opts hwhole
    refine ⟨⟨_, ?_, length_zmqPktHdr _ _ _, pcapHeader_zmqPktHdr _ _ _⟩, ?_⟩
    · rw [hlen]
      rfl
    · rw [hlen]
      exact Nat.mod_lt _ (by decide)
  | inr tv =>
    refine ⟨⟨_, ?_, length_zmqPktHdr _ _ _, pcapHeader_zmqPktHdr _ _ _⟩, ?_⟩
    · rfl
    · exact (by decide : heartbeatFrame.length < 2 ^ 16)

theorem caplen_received {x : ZmqItem} (hwhole : x.Whole) :
    (opts.received x).hdr.caplen.toNat = (opts.received x).frame.length := by
  have hlt := (encodes_received opts hwhole).length_lt
  cases x with
  | inl h =>
    rw [length_received_inl opts hwhole] at hlt ⊢
    exact Nat.mod_eq_of_lt (Nat.lt_trans hlt (by decide))
  | inr tv => rfl

theorem length_zmqBatchHdr (n : ℕ) :
    (zmqBatchHdr n opts.serviceTag opts.uuid).length = batchHdrSize := by
  simp [zmqBatchHdr, opts.uuid_length, batchHdrSize]

theorem pktsNum_message (hlen : batch.length < 2 ^ 16) :
    pktsNum (opts.message batch) = batch.length := by
  have hread : ofBe [UInt8.ofNat (batch.length / 256 ^ 1), UInt8.ofNat (batch.length / 256 ^ 0)] =
      batch.length % 256 ^ 2 := ofBe_be 2 _
  simp only [pktsNum, ZmqOptions.message, zmqBatchHdr, be, cons_append,
    nil_append, drop_succ_cons, drop_zero, take_succ_cons, take_zero,
    hread]
  exact Nat.mod_eq_of_lt hlen

theorem length_message (hwhole : ∀ x ∈ batch, ZmqItem.Whole x) :
    (opts.message batch).length =
      24 + (batch.map fun x => 18 + (opts.received x).frame.length).sum := by
  have hsum : (batch.flatMap opts.encode).length =
      (batch.map fun x => 18 + (opts.received x).frame.length).sum := by
    rw [length_flatMap]
    congr 1
    apply map_congr_left
    intro x hx
    rw [(encodes_received opts (hwhole x hx)).length, pktDataLenSize, pktHdrSize]
  rw [ZmqOptions.message, length_append, length_zmqBatchHdr, hsum, batchHdrSize]

/-- A message decodes to its records. -/
theorem handleZmqMsg_message (hwhole : ∀ x ∈ batch, ZmqItem.Whole x) (hlen : batch.length < 2 ^ 16)
    (dump : List Received) :
    handleZmqMsg Tools.fileWritePacket dump (opts.message batch) =
      (dump ++ batch.map opts.received, .ok ()) := by
  have hsize : ¬ (opts.message batch).length < batchHdrSize := by
    rw [length_message opts hwhole, batchHdrSize]
    omega
  have hrecords : (opts.message batch).drop batchHdrSize = batch.flatMap opts.encode ++ [] := by
    rw [append_nil]
    exact drop_left' (length_zmqBatchHdr opts _)
  rw [handleZmqMsg, if_neg hsize, pktsNum_message opts hlen, hrecords]
  apply handlePackets_complete
  intro x hx
  exact encodes_received opts (hwhole x hx)

/-! ## A receiver -/

/-- A record is a heartbeat by the type field of its frame.
Source: §7 -/
def isHeartbeat (r : Received) : Bool := ofBe ((r.frame.drop 12).take 2) = zmqHeartbeatEtherType

/-- The position of the MPLS type: `bytes` are the bytes of the frame from the type field at
`offset` on. VLAN types and their tags are passed over.
Source: §5 -/
def labelOffset (offset : ℕ) : List UInt8 → Option ℕ
  | t₁ :: t₂ :: _ :: _ :: rest =>
    if ofBe [t₁, t₂] = etherTypeMpls then some offset
    else if isVlanEthertype (ofBe [t₁, t₂]) then labelOffset (offset + 4) rest
    else none
  | _ => none

/-- The direction in a label.
Source: §5.1 -/
def directOfLabel (bits : ℕ) : PktDir :=
  match bits with
  | 0 => .noncheck
  | 1 => .incoming
  | 2 => .outgoing
  | _ => .unknown

/-- What a receiver reads out of a data record. The captured frame is `headers`, two bytes of type
that are not carried, and `payload`. -/
structure Recovered where
  ts : Timeval
  len : UInt32
  direct : PktDir
  serviceTag : ℕ
  headers : List UInt8
  payload : List UInt8
deriving DecidableEq

/-- A data record, read as the wire format says.
Source: §5, §6 -/
def recover (r : Received) : Option Recovered :=
  match labelOffset 12 (r.frame.drop 12) with
  | none => none
  | some offset =>
    match r.frame.drop (offset + 2) with
    | b₀ :: b₁ :: b₂ :: _ :: payload => some {
        ts := r.hdr.ts
        len := r.hdr.len - 4
        direct := directOfLabel (b₀.toNat / 8 % 16)
        serviceTag := b₁.toNat * 16 + b₂.toNat / 16
        headers := r.frame.take offset
        payload := payload }
    | _ => none

theorem labelOffset_ne_heartbeat {start offset : ℕ} {bytes : List UInt8}
    (h : labelOffset start bytes = some offset) : ofBe (bytes.take 2) ≠ zmqHeartbeatEtherType := by
  intro hbeat
  fun_cases labelOffset start bytes with
  | case1 t₁ t₂ _ _ rest hmpls =>
    have htype : ofBe [t₁, t₂] = zmqHeartbeatEtherType := hbeat
    rw [hmpls] at htype
    exact absurd htype (by decide)
  | case2 t₁ t₂ _ _ rest hmpls hvlan =>
    have htype : ofBe [t₁, t₂] = zmqHeartbeatEtherType := hbeat
    rw [htype] at hvlan
    exact absurd hvlan (by decide)
  | case3 | case4 => simp_all [labelOffset]

theorem labelOffset_mpls (offset : ℕ) (a b : UInt8) (tail : List UInt8) :
    labelOffset offset (be 2 etherTypeMpls ++ a :: b :: tail) = some offset := by
  rw [show be 2 etherTypeMpls = [0x88, 0x47] from by decide, cons_append, cons_append,
    nil_append, labelOffset, if_pos (by decide)]

theorem labelOffset_vlan (offset : ℕ) {t₁ t₂ : UInt8}
    (hvlan : isVlanEthertype (ofBe [t₁, t₂]) = true)
    (a b : UInt8) (rest : List UInt8) :
    labelOffset offset (t₁ :: t₂ :: a :: b :: rest) = labelOffset (offset + 4) rest := by
  have hmpls : ofBe [t₁, t₂] ≠ etherTypeMpls := by
    intro heq
    rw [heq] at hvlan
    exact absurd hvlan (by decide)
  rw [labelOffset, if_neg hmpls, if_pos hvlan]

/-- **Both walks agree.** Where the output finds `n` VLAN tags, the receiver passes them and finds
the MPLS type. -/
theorem vlanStackEnd_walk (etherType start : ℕ) (rest : List UInt8) :
    vlanStackEnd etherType start rest = 0 ∨
      ∃ n, vlanStackEnd etherType start rest = start + 4 * n ∧
        ∀ t₁ t₂, ofBe [t₁, t₂] = etherType → ∀ offset a b tail,
          labelOffset offset ((t₁ :: t₂ :: rest).take (4 * n) ++
            (be 2 etherTypeMpls ++ a :: b :: tail)) = some (offset + 4 * n) := by
  fun_induction vlanStackEnd etherType start rest with
  | case1 etherType start hvlan _ _ u₁ u₂ rest ih =>
    obtain hzero | ⟨n, hend, hwalk⟩ := ih
    · exact .inl hzero
    · refine .inr ⟨n + 1, by omega, ?_⟩
      rintro t₁ t₂ rfl offset a b tail
      have hnext := hwalk u₁ u₂ rfl (offset + 4) a b tail
      rw [Nat.mul_succ, take_succ_cons, take_succ_cons, take_succ_cons,
        take_succ_cons, cons_append, cons_append, cons_append,
        cons_append, labelOffset_vlan _ hvlan, hnext, Nat.add_assoc, Nat.add_comm 4]
  | case2 => exact .inl rfl
  | case3 etherType start rest hvlan =>
    refine .inr ⟨0, rfl, ?_⟩
    intro t₁ t₂ _ offset a b tail
    rw [Nat.mul_zero, take_zero, nil_append, Nat.add_zero]
    exact labelOffset_mpls offset a b tail

/-- What a record carries for a frame. -/
theorem zmqFrame_eq (serviceTag : UInt16) (data : List UInt8) (direct : PktDir)
    {n l2Len : ℕ} (frameLen : ℕ) (hl2 : l2Len = etherHeaderLen + 4 * n) :
    zmqFrame serviceTag data direct l2Len frameLen =
      data.take (l2Len - 2) ++ (be 2 etherTypeMpls ++ (makeMplsHdr direct serviceTag ++
        (data.drop l2Len).take (frameLen - l2Len))) := by
  simp only [etherHeaderLen] at hl2
  by_cases hvlan : l2Len - 14 = 0
  · rw [show l2Len - 2 = 12 by omega]
    simp only [zmqFrame, etherHeaderLen, hvlan, if_true, append_assoc]
  · have hrest : ((data.drop 14).take (l2Len - 14)).drop (l2Len - 14 - 2 + 2) = [] := by
      apply drop_eq_nil_of_le
      rw [length_take]
      omega
    have hheaders : data.take 14 ++ ((data.drop 14).take (l2Len - 14)).take (l2Len - 14 - 2) =
        data.take (l2Len - 2) := by
      rw [take_take, Nat.min_eq_left (by omega), ← take_add]
      congr 1
      omega
    simp only [zmqFrame, etherHeaderLen, hvlan, if_false, patch, length_be, hrest, append_nil,
      ← hheaders, append_assoc]

/-- The receiver finds the label where the output wrote it. -/
theorem labelOffset_frame {p : Packet} (hl2 : zmqL2Len p ≠ 0) (a b : UInt8) (tail : List UInt8) :
    labelOffset 12 ((p.data.take (zmqL2Len p - 2)).drop 12 ++
      (be 2 etherTypeMpls ++ a :: b :: tail)) = some (zmqL2Len p - 2) := by
  obtain ⟨-, -, hcap⟩ := zmqL2Len_bounds hl2
  have hlen := outputFrameLen_le_caplen p.hdr.caplen 0 zmqMaxFrameLen
  rw [← p.data_length] at hlen
  revert hl2 hcap
  unfold zmqL2Len l2HeaderLen
  generalize outputFrameLen p.hdr.caplen 0 zmqMaxFrameLen = cap at *
  split_ifs with hshort
  · intro h
    exact absurd rfl h
  · intro h hcap
    simp only [etherHeaderLen] at *
    -- the type field after the addresses, read from the captured bytes
    obtain ⟨t₁, t₂, rest, hrest⟩ : ∃ t₁ t₂ rest, (p.data.take cap).drop 12 = t₁ :: t₂ :: rest := by
      rcases hshape : (p.data.take cap).drop 12 with _ | ⟨t₁, _ | ⟨t₂, rest⟩⟩
      iterate 2
        have hlength := congrArg List.length hshape
        simp only [length_drop, length_take, length_nil, length_cons] at hlength
        omega
      exact ⟨t₁, t₂, rest, rfl⟩
    have htail : (p.data.take cap).drop 14 = rest := by
      rw [show 14 = 12 + 2 from rfl, ← drop_drop, hrest]
      rfl
    have htype : (p.data.drop 12).take 2 = [t₁, t₂] := by
      have hcut := congrArg (List.take 2) hrest
      rwa [drop_take, take_take, Nat.min_eq_left (by omega)] at hcut
    rw [htail, htype] at h hcap ⊢
    obtain hzero | ⟨n, hend, hwalk⟩ := vlanStackEnd_walk (ofBe [t₁, t₂]) 14 rest
    · exact absurd hzero h
    · have hheaders : (p.data.take (14 + 4 * n - 2)).drop 12 = (t₁ :: t₂ :: rest).take (4 * n) := by
        rw [← hrest, drop_take, drop_take, take_take]
        congr 1
        omega
      rw [hend, hheaders, hwalk t₁ t₂ rfl 12 a b tail]
      congr 1
      omega

theorem directOfLabel_makeMplsHdr {direct : PktDir} (h : direct ≠ .unknown) :
    directOfLabel ((UInt8.ofNat ((direct.toInt % 16).toNat * 8 + 128)).toNat / 8 % 16) =
      direct := by
  cases direct with
  | unknown => exact absurd rfl h
  | noncheck | incoming | outgoing => rfl

theorem serviceTag_makeMplsHdr (tag : UInt32) :
    (UInt8.ofNat (tag.toUInt16.toNat / 16)).toNat * 16 +
      (UInt8.ofNat (tag.toUInt16.toNat % 16 * 16 + 1)).toNat / 16 = tag.toNat % 4096 := by
  simp only [UInt8.toNat_ofNat', UInt32.toNat_toUInt16]
  omega

/-- **A data record is read back**, but for the type field in front of the payload. -/
theorem recover_received (hl2 : zmqL2Len h.packet ≠ 0) (hdirect : h.direct ≠ .unknown) :
    labelOffset 12 ((opts.received (.inl h)).frame.drop 12) = some (zmqL2Len h.packet - 2) ∧
      recover (opts.received (.inl h)) = some {
        ts := wireTime h.packet.hdr.ts
        len := h.packet.hdr.len
        direct := h.direct
        serviceTag := opts.serviceTag.toNat % 4096
        headers := h.packet.data.take (zmqL2Len h.packet - 2)
        payload := (h.packet.data.drop (zmqL2Len h.packet)).take
          (zmqFrameLen opts.slice h.packet - zmqL2Len h.packet) } := by
  obtain ⟨n, hvlan, -⟩ := zmqL2Len_bounds hl2
  obtain ⟨hframe, hdata, -⟩ := zmqFrameLen_bounds opts.slice hl2
  have hlen : (h.packet.data.take (zmqL2Len h.packet - 2)).length = zmqL2Len h.packet - 2 := by
    rw [length_take]
    omega
  have hparts := zmqFrame_eq opts.serviceTag.toUInt16 h.packet.data h.direct
    (zmqFrameLen opts.slice h.packet) hvlan
  have hwalk : labelOffset 12 ((opts.received (.inl h)).frame.drop 12) =
      some (zmqL2Len h.packet - 2) := by
    rw [ZmqOptions.received, hparts, drop_append_of_le_length]
    · exact labelOffset_frame hl2 _ _ _
    · rw [hlen, hvlan, etherHeaderLen]
      omega
  have hheaders : (opts.received (.inl h)).frame.take (zmqL2Len h.packet - 2) =
      h.packet.data.take (zmqL2Len h.packet - 2) := by
    rw [ZmqOptions.received, hparts]
    exact take_left' hlen
  have hlabel : (opts.received (.inl h)).frame.drop (zmqL2Len h.packet - 2 + 2) =
      makeMplsHdr h.direct opts.serviceTag.toUInt16 ++ (h.packet.data.drop (zmqL2Len h.packet)).take
        (zmqFrameLen opts.slice h.packet - zmqL2Len h.packet) := by
    rw [ZmqOptions.received, hparts, ← append_assoc]
    apply drop_left'
    rw [length_append, hlen, length_be]
  have hwire : (opts.received (.inl h)).hdr.len - 4 = h.packet.hdr.len := by
    apply UInt32.toNat_inj.mp
    have hlt := h.packet.hdr.len.toNat_lt
    simp only [ZmqOptions.received, mplsHeaderLen, UInt32.toNat_sub, UInt32.toNat_ofNat']
    simp only [UInt32.reduceToNat]
    omega
  refine ⟨hwalk, ?_⟩
  rw [recover, hwalk]
  simp only [hlabel, makeMplsHdr, cons_append, nil_append, hheaders, hwire,
    directOfLabel_makeMplsHdr hdirect, serviceTag_makeMplsHdr]
  rfl

/-! ## Round trip -/

/-- What is generated has layer-2 headers and a direction. -/
theorem mem_zmqGenerated (env : Env) {o : ZmqOutput} {calls : List Call}
    (hmem : .inl h ∈ zmqGenerated env o calls) :
    zmqL2Len h.packet ≠ 0 ∧ h.direct ≠ .unknown := by
  induction calls generalizing o with
  | nil => exact absurd hmem not_mem_nil
  | cons call calls ih =>
    cases call with
    | sendPacket hd =>
      rcases mem_append.mp hmem with hhere | hlater
      · split_ifs at hhere with haccepted
        · rw [zmqSendPacket_snd_eq_zero] at haccepted
          obtain rfl : h = hd := Sum.inl.inj (mem_singleton.mp hhere)
          unfold zmqVerdict at haccepted
          split_ifs at haccepted with hl2 hdirect
          exact ⟨hl2, hdirect⟩
        · exact absurd hhere not_mem_nil
      · exact ih hlater
    | heartbeat now =>
      rcases mem_append.mp hmem with hhere | hlater
      · exact absurd hhere (by simp)
      · exact ih hlater

/-- `message` is a message of the records of `batch`: it has at least one, its size is that of its
records, and the decoder accepts it and hands over `pkts_num` records, those of the batch. -/
structure Decodes (opts : ZmqOptions) (batch : List ZmqItem) (message : List UInt8) : Prop where
  nonempty : batch ≠ []
  size : message.length = 24 + (batch.map fun x => 18 + (opts.received x).frame.length).sum
  pktsNum : pktsNum message = batch.length
  accepted : ∀ dump, handleZmqMsg Tools.fileWritePacket dump message =
    (dump ++ batch.map opts.received, .ok ())

/-- `v` says of the packet handed over all that its record is to say. -/
structure ReadsBack (opts : ZmqOptions) (h : Handed) (v : Recovered) : Prop where
  ts : v.ts = wireTime h.packet.hdr.ts
  len : v.len = h.packet.hdr.len
  direct : v.direct = h.direct
  serviceTag : v.serviceTag = opts.serviceTag.toNat % 2 ^ 12
  /-- only the innermost type field is missing -/
  headers : v.headers.length + 2 = zmqL2Len h.packet
  frame : ∃ etherType, etherType.length = 2 ∧
    h.packet.data.take (opts.countedLen h) = v.headers ++ etherType ++ v.payload

/-- Every accepted packet is read back from its record. -/
theorem exists_readsBack (hl2 : zmqL2Len h.packet ≠ 0) (hdirect : h.direct ≠ .unknown) :
    ∃ v, recover (opts.received (.inl h)) = some v ∧ ReadsBack opts h v := by
  obtain ⟨n, hvlan, -⟩ := zmqL2Len_bounds hl2
  obtain ⟨hframe, hdata, -⟩ := zmqFrameLen_bounds opts.slice hl2
  simp only [etherHeaderLen] at hvlan
  refine ⟨_, (recover_received opts hl2 hdirect).2, rfl, rfl, rfl, rfl, ?_, ?_⟩
  · rw [length_take]
    omega
  · refine ⟨(h.packet.data.drop (zmqL2Len h.packet - 2)).take 2, ?_, ?_⟩
    · rw [length_take, length_drop]
      omega
    · rw [ZmqOptions.countedLen, if_neg hl2, ← take_add,
        show zmqL2Len h.packet - 2 + 2 = zmqL2Len h.packet by omega, ← take_add,
        Nat.add_sub_cancel' hframe]

theorem Sim.decodes {opts : ZmqOptions} {o : ZmqOutput} {B : Book Handed Timeval Bucket}
    (h : Sim opts o B) (hmem : batch ∈ B.closed.map Prod.fst) :
    Decodes opts batch (opts.message batch) := by
  obtain ⟨c, hc, rfl⟩ := mem_map.mp hmem
  obtain ⟨hne, hwhole, hfits, -⟩ := h.closed c hc
  have hlen : c.1.length < 2 ^ 16 := by
    have hrecords := (length_batch opts hwhole).1
    simp only [zmqBatchHdrLen, zmqMaxBatchBufSize] at hfits
    omega
  exact {
    nonempty := hne
    size := length_message opts hwhole
    pktsNum := pktsNum_message opts hlen
    accepted := handleZmqMsg_message opts hwhole hlen }

/-- **Round trip.** The messages given to `zmq_send` decode to the accepted packets and the
generated heartbeats, in call order; nothing is left in the buffer after `destroy`. Source:
`docs/ZMQ-WIRE-FORMAT.md` -/
theorem zmq_round_trip (env : Env) (opts : ZmqOptions) (st : OutputStats) (calls : List Call)
    (destroyed : Bool) :
    let o := zmqAfter env (zmqOutputNew env opts st) calls destroyed
    let generated := zmqGenerated env (zmqOutputNew env opts st) calls
    ∃ (batches : List (List ZmqItem)) (pending : List ZmqItem),
      o.wire.map Prod.fst = batches.map opts.message ∧
      (∀ batch ∈ batches, Decodes opts batch (opts.message batch)) ∧
      receive Tools.fileWritePacket [] (o.wire.map Prod.fst) =
        (batches.flatten.map opts.received, .ok ()) ∧
      batches.flatten ++ pending = generated ∧
      (o.pktsNum.toNat = pending.length ∧
        o.buf.take (o.batchBufpos - zmqBatchHdrLen) = pending.flatMap opts.encode ∧
        (destroyed = true → pending = [])) ∧
      (∀ x ∈ generated,
        (opts.received x).hdr.caplen.toNat = (opts.received x).frame.length ∧
        (isHeartbeat (opts.received x) = true ↔ ∃ tv, x = .inr tv) ∧
        ∀ h, x = .inl h → ∃ v, recover (opts.received x) = some v ∧ ReadsBack opts h v) := by
  intro o generated
  obtain ⟨B, hadv, hnil⟩ := zmqAfter_advance env opts st calls destroyed
  have hsim : Sim opts o B := hadv.sim
  have hwire : o.wire.map Prod.fst = (B.closed.map Prod.fst).map opts.message := by
    rw [hsim.wire, map_map, map_map]
    rfl
  have hitems : (B.closed.map Prod.fst).flatten ++ B.current = generated := by
    rw [← flatMap_def]
    exact hadv.items
  refine ⟨B.closed.map Prod.fst, B.current, hwire, fun batch => hsim.decodes, ?_, hitems,
    ⟨hsim.num, hsim.buf, hnil⟩, ?_⟩
  · have hall := receive_complete opts.message (List.map opts.received) (B.closed.map Prod.fst)
      (fun batch hmem => (hsim.decodes hmem).accepted) []
    rw [hwire, hall, nil_append, map_flatten, flatMap_def]
  · intro x hx
    cases x with
    | inl h =>
      obtain ⟨hl2, hdirect⟩ := mem_zmqGenerated env hx
      refine ⟨caplen_received opts hl2, ?_, ?_⟩
      · have hwalk := labelOffset_ne_heartbeat (recover_received opts hl2 hdirect).1
        simp [isHeartbeat, hwalk]
      · rintro _ ⟨⟩
        exact exists_readsBack opts hl2 hdirect
    | inr tv =>
      refine ⟨caplen_received opts (x := .inr tv) trivial, ?_, ?_⟩
      · exact ⟨fun _ => ⟨tv, rfl⟩, fun _ => rfl⟩
      · nofun

end CloudProbe.Worker
