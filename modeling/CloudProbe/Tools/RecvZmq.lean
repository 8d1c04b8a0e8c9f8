import CloudProbe.Lib.Bytes
import CloudProbe.Worker.Packet

/-!
# The reference decoder

The receiving tool `recvzmq`: it takes the messages of the zmq output apart and gives the packets to
its own output.

* **One message** (`handleZmqMsg`): the batch header, then `pkts_num` records (`handlePackets`). The
  bytes from `msg_offset` on are the argument `rest`, so `msg_size - msg_offset` is its length.
* **The receive loop** (`receive`): messages are handled in order until one is refused.
* **Completeness** (`handlePackets_complete`): a concatenation of well-formed records is taken apart
  again.

The line printed for each message, with the UUID in it, is left out.

Sources without a file are in `recvzmq/main.c`.
-/

namespace CloudProbe.Tools

open Lib Worker List

/-- What is handed to the output for one record: the header and the `pkt_data_len` bytes it stands
for. -/
structure Received where
  hdr : PcapPkthdr
  frame : List UInt8
deriving DecidableEq

/-- `sizeof(zmq_pkt_batch_hdr_t)`. -/
def batchHdrSize : ℕ := 24

/-- `ZMQ_PKT_DATA_LEN_SIZE`. -/
def pktDataLenSize : ℕ := 2

/-- `sizeof(zmq_pkt_hdr_t)`. -/
def pktHdrSize : ℕ := 16

/-- The header that the bytes of a `zmq_pkt_hdr_t` stand for.
Source: `handle_zmq_msg`, `ntohl` -/
def pcapHeader (bytes : List UInt8) : PcapPkthdr where
  ts := ⟨ofBe (bytes.take 4), ofBe ((bytes.drop 4).take 4)⟩
  caplen := UInt32.ofNat (ofBe ((bytes.drop 8).take 4))
  len := UInt32.ofNat (ofBe ((bytes.drop 12).take 4))

section Decoder

variable {δ : Type*} (sendPacket : δ → Received → δ × ℤ)

/-- The loop over the records: `n` are left, `i` were handled, and `out` is the state of the output.
Source: `handle_zmq_msg` -/
def handlePackets : ℕ → ℕ → δ → List UInt8 → δ × Except String Unit
  | 0, _, out, _ => (out, .ok ())
  | n + 1, i, out, rest =>
    let remain := rest.length
    if remain < pktDataLenSize + pktHdrSize then
      (out, .error s!"packet {i + 1}: remain_size {remain} less than 2 + sizeof(zmq_pkt_hdr_t)")
    else
      let pktDataLen := ofBe (rest.take pktDataLenSize)
      let rest := rest.drop pktDataLenSize
      let pktHdr := rest.take pktHdrSize
      let rest := rest.drop pktHdrSize
      let remain := rest.length
      if remain < pktDataLen then
        (out, .error s!"packet {i + 1}: remain_size: {remain} less than pkt_data length")
      else
        let handed := sendPacket out ⟨pcapHeader pktHdr, rest.take pktDataLen⟩
        if handed.2 ≠ 0 then (handed.1, .error s!"packet {i + 1}: send_packet error")
        else handlePackets n (i + 1) handed.1 (rest.drop pktDataLen)

/-- `pkts_num` of a message.
Source: `handle_zmq_msg` -/
def pktsNum (msg : List UInt8) : ℕ := ofBe ((msg.drop 2).take 2)

/-- Source: `handle_zmq_msg` -/
def handleZmqMsg (out : δ) (msg : List UInt8) : δ × Except String Unit :=
  if msg.length < batchHdrSize then
    (out, .error "msg_size less than sizeof(zmq_pkt_batch_hdr_t)")
  else handlePackets sendPacket (pktsNum msg) 0 out (msg.drop batchHdrSize)

/-- The receive loop over the messages that arrive.
Source: `main` -/
def receive : δ → List (List UInt8) → δ × Except String Unit
  | out, [] => (out, .ok ())
  | out, msg :: msgs =>
    let handled := handleZmqMsg sendPacket out msg
    match handled.2 with
    | .error e => (handled.1, .error e)
    | .ok () => receive handled.1 msgs

end Decoder

/-- The file output: the packets of the dump file, in order. It never fails.
Source: `file_write_packet` -/
def fileWritePacket (dump : List Received) (r : Received) : List Received × ℤ := (dump ++ [r], 0)

/-! ## Completeness -/

/-- `record` is the image of `r`: its length, its header and its bytes. -/
structure Encodes (record : List UInt8) (r : Received) : Prop where
  /-- the record is cut into the length, the header and the frame -/
  parts : ∃ pktHdr, record = be 2 r.frame.length ++ pktHdr ++ r.frame ∧
    pktHdr.length = pktHdrSize ∧ pcapHeader pktHdr = r.hdr
  /-- the length fits its field -/
  length_lt : r.frame.length < 2 ^ 16

variable {record : List UInt8} {r : Received}

theorem Encodes.length (h : Encodes record r) :
    record.length = pktDataLenSize + pktHdrSize + r.frame.length := by
  obtain ⟨pktHdr, hrecord, hlen, -⟩ := h.parts
  rw [hrecord, length_append, length_append, length_be, hlen, pktDataLenSize]

/-- A round on a record, by what the output returns. -/
theorem handlePackets_cons {δ : Type*} (sendPacket : δ → Received → δ × ℤ) (h : Encodes record r)
    (n i : ℕ) (out : δ) (rest : List UInt8) :
    handlePackets sendPacket (n + 1) i out (record ++ rest) =
      if (sendPacket out r).2 ≠ 0 then
        ((sendPacket out r).1, .error s!"packet {i + 1}: send_packet error")
      else handlePackets sendPacket n (i + 1) (sendPacket out r).1 rest := by
  obtain ⟨pktHdr, hrecord, hlen, hhdr⟩ := h.parts
  have hsize : ¬ (record ++ rest).length < pktDataLenSize + pktHdrSize := by
    rw [length_append, h.length]
    omega
  have hshape : record ++ rest = be 2 r.frame.length ++ (pktHdr ++ (r.frame ++ rest)) := by
    rw [hrecord, append_assoc, append_assoc]
  have htake : (record ++ rest).take pktDataLenSize = be 2 r.frame.length := by
    rw [hshape]
    exact take_left' (length_be _ _)
  have hdrop : (record ++ rest).drop pktDataLenSize = pktHdr ++ (r.frame ++ rest) := by
    rw [hshape]
    exact drop_left' (length_be _ _)
  have hdataLen : ofBe (be 2 r.frame.length) = r.frame.length := by
    rw [ofBe_be]
    exact Nat.mod_eq_of_lt h.length_lt
  have hremain : ¬ (r.frame ++ rest).length < r.frame.length := by
    rw [length_append]
    omega
  rw [handlePackets]
  simp only [hsize, if_false, htake, hdrop, hdataLen, take_left' hlen, drop_left' hlen,
    hremain, take_left, drop_left, hhdr]

/-- A round of the loop: an error, or a record that is handed over. -/
theorem handlePackets_cases {δ : Type*} (sendPacket : δ → Received → δ × ℤ) (n i : ℕ) (out : δ)
    (rest : List UInt8) :
    (∃ e, handlePackets sendPacket (n + 1) i out rest = (out, .error e)) ∨
      ∃ record r tail, rest = record ++ tail ∧ Encodes record r := by
  by_cases hsize : rest.length < pktDataLenSize + pktHdrSize
  · left
    rw [handlePackets]
    exact ⟨_, if_pos hsize⟩
  by_cases hremain : ((rest.drop pktDataLenSize).drop pktHdrSize).length <
      ofBe (rest.take pktDataLenSize)
  · left
    rw [handlePackets]
    exact ⟨_, (if_neg hsize).trans (if_pos hremain)⟩
  right
  rw [not_lt] at hsize hremain
  obtain ⟨dataLen, hdataLen⟩ : ∃ dataLen, dataLen = ofBe (rest.take pktDataLenSize) := ⟨_, rfl⟩
  have hlen : (rest.take pktDataLenSize).length = 2 :=
    length_take_of_le ((Nat.le_add_right _ _).trans hsize)
  have hhdr : ((rest.drop pktDataLenSize).take pktHdrSize).length = pktHdrSize := by
    rw [length_take, length_drop]
    omega
  have hframe : (((rest.drop pktDataLenSize).drop pktHdrSize).take dataLen).length = dataLen :=
    length_take_of_le (hdataLen ▸ hremain)
  refine ⟨rest.take pktDataLenSize ++ (rest.drop pktDataLenSize).take pktHdrSize ++
      ((rest.drop pktDataLenSize).drop pktHdrSize).take dataLen,
    ⟨pcapHeader ((rest.drop pktDataLenSize).take pktHdrSize),
      ((rest.drop pktDataLenSize).drop pktHdrSize).take dataLen⟩,
    ((rest.drop pktDataLenSize).drop pktHdrSize).drop dataLen, ?_, ⟨_, ?_, hhdr, rfl⟩, ?_⟩
  · simp only [append_assoc, take_append_drop]
  · rw [hframe, hdataLen, be_ofBe hlen]
  · rw [hframe, hdataLen]
    exact ofBe_lt hlen.le

theorem handlePackets_succ (h : Encodes record r) (n i : ℕ) (dump : List Received)
    (rest : List UInt8) :
    handlePackets fileWritePacket (n + 1) i dump (record ++ rest) =
      handlePackets fileWritePacket n (i + 1) (dump ++ [r]) rest :=
  (handlePackets_cons fileWritePacket h n i dump rest).trans (if_neg fun hne => hne rfl)

/-- **Completeness.** A concatenation of records is accepted, and its packets are handed over in
order. -/
theorem handlePackets_complete {α : Type*} (encode : α → List UInt8) (image : α → Received)
    (xs : List α) (henc : ∀ x ∈ xs, Encodes (encode x) (image x)) (i : ℕ) (dump : List Received)
    (rest : List UInt8) :
    handlePackets fileWritePacket xs.length i dump (xs.flatMap encode ++ rest) =
      (dump ++ xs.map image, .ok ()) := by
  induction xs generalizing i dump with
  | nil => simp [handlePackets]
  | cons x xs ih =>
    rw [length_cons, flatMap_cons, append_assoc,
      handlePackets_succ (henc x (.head _)), ih fun y hy => henc y (.tail _ hy), map_cons,
      append_assoc, singleton_append]

theorem receive_complete {α : Type*} (message : α → List UInt8) (image : α → List Received)
    (batches : List α)
    (haccepted : ∀ b ∈ batches, ∀ dump,
      handleZmqMsg fileWritePacket dump (message b) = (dump ++ image b, .ok ()))
    (dump : List Received) :
    receive fileWritePacket dump (batches.map message) =
      (dump ++ batches.flatMap image, .ok ()) := by
  induction batches generalizing dump with
  | nil => simp [receive]
  | cons b batches ih =>
    rw [map_cons, receive, haccepted b (.head _)]
    simp only [ih fun c hc => haccepted c (.tail _ hc), flatMap_cons, append_assoc]

end CloudProbe.Tools
