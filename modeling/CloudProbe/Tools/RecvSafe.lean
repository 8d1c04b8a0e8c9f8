import CloudProbe.Lib.Checked
import CloudProbe.Tools.RecvZmq
import Mathlib.Data.List.Forall2

/-!
# What the decoder reads of a hostile message

`handle_zmq_msg` on the bytes of the message itself, with `msg_offset` and under a checker: a read
outside of the message and a difference below zero are faults. What it hands to the output is the
header and a position, and only the header says how many bytes there are.

* **The checker never stops it** (`handleZmqMsgAt_eq`): the run is the run of `handleZmqMsg`, whose
  argument is the rest of the message (`track` carries the positions along).
* **What is handed over** (`handed_isRecord`): a whole record of the message, and of the file output
  every one of them (`file_hands`).

Sources without a file are in `recvzmq/main.c`.
-/

namespace CloudProbe.Tools

open Lib Worker List

/-- What is handed to the output: the header, the position of the data in the message, and where the
record ends. -/
structure HandedAt where
  hdr : PcapPkthdr
  pktData : ℕ
  recordEnd : ℕ
deriving DecidableEq

/-- The output: without one, nothing is handed over; the answer of `send_packet` may depend on all
that was handed over before.
Source: `output_base_t` -/
abbrev Output := Option (List HandedAt → HandedAt → ℤ)

/-- The file output, which never fails.
Source: `file_write_packet` -/
def fileOutput : Output := some fun _ _ => 0

/-- The bytes `pcap_dump` takes from the message.
Source: `file_write_packet` -/
def pcapDump (msg : List UInt8) (packet : HandedAt) : Checked (List UInt8) :=
  loadBytes msg msg.length packet.pktData packet.hdr.caplen.toNat

/-- A packet is handed to the output, if there is one.
Source: `handle_zmq_msg` -/
def Output.hand (output : Output) (handed : List HandedAt) (packet : HandedAt) :
    List HandedAt × ℤ :=
  match output with
  | none => (handed, 0)
  | some sendPacket => (handed ++ [packet], sendPacket handed packet)

/-- The four fields of the packet header at `pktHdr`.
Source: `handle_zmq_msg` -/
def loadHeader (msg : List UInt8) (pktHdr : ℕ) : Checked PcapPkthdr := do
  let tvSec ← loadBe msg msg.length pktHdr 4
  let tvUsec ← loadBe msg msg.length (pktHdr + 4) 4
  let caplen ← loadBe msg msg.length (pktHdr + 8) 4
  let len ← loadBe msg msg.length (pktHdr + 12) 4
  return ⟨⟨tvSec, tvUsec⟩, UInt32.ofNat caplen, UInt32.ofNat len⟩

/-- The loop over the records: `n` are left, `i` were handled, `handed` is what was handed over.
Source: `handle_zmq_msg` -/
def handlePacketsAt (output : Output) (msg : List UInt8) :
    ℕ → ℕ → List HandedAt → ℕ → Checked (List HandedAt × Except String Unit)
  | 0, _, handed, _ => .ok (handed, .ok ())
  | n + 1, i, handed, msgOffset => do
    let remain ← sub msg.length msgOffset
    if remain < pktDataLenSize + pktHdrSize then
      return (handed,
        .error s!"packet {i + 1}: remain_size {remain} less than 2 + sizeof(zmq_pkt_hdr_t)")
    else
      let pktDataLen ← loadBe msg msg.length msgOffset pktDataLenSize
      let pktHdr := msgOffset + pktDataLenSize
      let msgOffset := pktHdr + pktHdrSize
      let remain ← sub msg.length msgOffset
      if remain < pktDataLen then
        return (handed,
          .error s!"packet {i + 1}: remain_size: {remain} less than pkt_data length")
      else
        let header ← loadHeader msg pktHdr
        let sent := output.hand handed ⟨header, msgOffset, msgOffset + pktDataLen⟩
        if sent.2 ≠ 0 then return (sent.1, .error s!"packet {i + 1}: send_packet error")
        else handlePacketsAt output msg n (i + 1) sent.1 (msgOffset + pktDataLen)

/-- The number of packets and the UUID are read from the batch header; the UUID is only printed.
Source: `handle_zmq_msg` -/
def handleZmqMsgAt (output : Output) (msg : List UInt8) :
    Checked (List HandedAt × Except String Unit) :=
  if msg.length < batchHdrSize then
    return ([], .error "msg_size less than sizeof(zmq_pkt_batch_hdr_t)")
  else do
    let pktsNum ← loadBe msg msg.length 2 2
    let _uuid ← loadBytes msg msg.length 8 16
    handlePacketsAt output msg pktsNum 0 [] batchHdrSize

/-! ## The checker never stops the run -/

def track (output : Output) (state : List HandedAt × ℕ) (r : Received) :
    (List HandedAt × ℕ) × ℤ :=
  let pktData := state.2 + pktDataLenSize + pktHdrSize
  let sent := output.hand state.1 ⟨r.hdr, pktData, pktData + r.frame.length⟩
  ((sent.1, pktData + r.frame.length), sent.2)

def untrack (run : (List HandedAt × ℕ) × Except String Unit) :
    List HandedAt × Except String Unit :=
  (run.1.1, run.2)

section Checker

variable {msg : List UInt8}

theorem loadHeader_eq {pktHdr : ℕ} (h : pktHdr + pktHdrSize ≤ msg.length) :
    loadHeader msg pktHdr = .ok (pcapHeader ((msg.drop pktHdr).take pktHdrSize)) := by
  have hfield : ∀ k, k + 4 ≤ pktHdrSize → loadBe msg msg.length (pktHdr + k) 4 =
      .ok (ofBe ((((msg.drop pktHdr).take pktHdrSize).drop k).take 4)) := by
    intro k hk
    rw [loadBe_eq le_rfl (by omega), take_length, drop_take, take_take,
      Nat.min_eq_left (by omega), drop_drop]
  have hfirst := hfield 0 (by decide)
  rw [Nat.add_zero, drop_zero] at hfirst
  rw [loadHeader, hfirst, hfield 4 (by decide), hfield 8 (by decide), hfield 12 (by decide)]
  rfl

/-- The loop with positions and bounds is the loop on lists. -/
theorem handlePacketsAt_eq (output : Output) (n i : ℕ) (handed : List HandedAt) {msgOffset : ℕ}
    (hoffset : msgOffset ≤ msg.length) :
    handlePacketsAt output msg n i handed msgOffset =
      .ok (untrack
        (handlePackets (track output) n i (handed, msgOffset) (msg.drop msgOffset))) := by
  induction n generalizing i handed msgOffset with
  | zero => rfl
  | succ n ih =>
    have hremain : (msg.drop msgOffset).length = msg.length - msgOffset := length_drop
    rw [handlePacketsAt, sub_eq hoffset, Checked.ok_bind, handlePackets, apply_ite untrack, hremain]
    refine Checked.early rfl fun hhdr => ?_
    have hend : msgOffset + pktDataLenSize + pktHdrSize ≤ msg.length := by omega
    have hlen : loadBe msg msg.length msgOffset pktDataLenSize =
        .ok (ofBe ((msg.drop msgOffset).take pktDataLenSize)) := by
      rw [loadBe_eq le_rfl (by omega), take_length]
    generalize hdataLen : ofBe ((msg.drop msgOffset).take pktDataLenSize) = pktDataLen at hlen ⊢
    have hrest : (msg.drop msgOffset).drop pktDataLenSize =
        msg.drop (msgOffset + pktDataLenSize) :=
      drop_drop
    have hleft : (msg.drop (msgOffset + pktDataLenSize)).drop pktHdrSize =
        msg.drop (msgOffset + pktDataLenSize + pktHdrSize) := drop_drop
    rw [hlen, Checked.ok_bind]
    dsimp only
    rw [sub_eq hend, Checked.ok_bind, apply_ite untrack, hrest, hleft, length_drop]
    refine Checked.early rfl fun hdata => ?_
    have hframe : ((msg.drop (msgOffset + pktDataLenSize + pktHdrSize)).take pktDataLen).length =
        pktDataLen := length_take_of_le (by rw [length_drop]; omega)
    rw [loadHeader_eq hend, Checked.ok_bind, apply_ite untrack, track, hframe, drop_drop]
    exact Checked.early rfl fun _ => ih _ _ (by omega)

/-- **The checker never stops the decoder**: the checked run is the run of the decoder on lists. -/
theorem handleZmqMsgAt_eq (output : Output) (msg : List UInt8) :
    handleZmqMsgAt output msg =
      .ok (untrack (handleZmqMsg (track output) ([], batchHdrSize) msg)) := by
  rw [handleZmqMsgAt, handleZmqMsg, apply_ite untrack]
  refine Checked.early rfl fun hsize => ?_
  have hbatch : 24 ≤ msg.length := Nat.le_of_not_lt hsize
  rw [loadBe_eq le_rfl (by omega), Checked.ok_bind, loadBytes_eq le_rfl (by omega),
    Checked.ok_bind, take_length]
  exact handlePacketsAt_eq output _ 0 [] hbatch

end Checker

/-! ## What is handed over -/

/-- The message starts with a batch header and the records of some packets. -/
def Framed (msg : List UInt8) (rs : List Received) (tail : List UInt8) : Prop :=
  ∃ batch images, msg = batch ++ images.flatten ++ tail ∧ batch.length = batchHdrSize ∧
    List.Forall₂ Encodes images rs

/-- What was handed over is a record of the message, one of the number it announces. -/
structure IsRecord (msg : List UInt8) (packet : HandedAt) (r : Received) : Prop where
  framed : ∃ rs tail, Framed msg (rs ++ [r]) tail ∧ rs.length < pktsNum msg ∧
    msg.drop packet.pktData = r.frame ++ tail ∧
    packet.recordEnd + tail.length = msg.length
  hdr_eq : packet.hdr = r.hdr
  recordEnd_eq : packet.recordEnd = packet.pktData + r.frame.length

section Handed

variable {msg : List UInt8}

variable {rs : List Received}

theorem Framed.snoc {r : Received} {record tail : List UInt8} (h : Framed msg rs (record ++ tail))
    (hr : Encodes record r) : Framed msg (rs ++ [r]) tail := by
  obtain ⟨batch, images, hmsg, hbatch, henc⟩ := h
  refine ⟨batch, images ++ [record], ?_, hbatch, ?_⟩
  · rw [hmsg]
    simp
  · exact rel_append henc (.cons hr .nil)

/-- Whatever is handed over is a whole record of the message. -/
theorem handed_isRecord (output : Output) {n i msgOffset : ℕ} {handed : List HandedAt}
    (hframed : Framed msg rs (msg.drop msgOffset)) (hoffset : msgOffset ≤ msg.length)
    (hcount : rs.length + n ≤ pktsNum msg) (hhanded : ∀ packet ∈ handed, ∃ r, IsRecord msg packet r)
    :
    ∀ packet ∈ (handlePackets (track output) n i (handed, msgOffset) (msg.drop msgOffset)).1.1,
      ∃ r, IsRecord msg packet r := by
  induction n generalizing i msgOffset handed rs with
  | zero => exact hhanded
  | succ n ih =>
    obtain ⟨e, hrefused⟩ | ⟨record, r, tail, hrest, hr⟩ :=
      handlePackets_cases (track output) n i (handed, msgOffset) (msg.drop msgOffset)
    · rw [hrefused]
      exact hhanded
    have hlength := congrArg List.length hrest
    rw [length_drop, length_append, hr.length] at hlength
    have hnext : msg.drop (msgOffset + pktDataLenSize + pktHdrSize + r.frame.length) = tail := by
      rw [Nat.add_assoc, Nat.add_assoc, ← drop_drop, hrest, ← Nat.add_assoc, ← hr.length, drop_left]
    have hdata : msg.drop (msgOffset + pktDataLenSize + pktHdrSize) = r.frame ++ tail := by
      obtain ⟨pktHdr, hrecord, hlen, -⟩ := hr.parts
      rw [Nat.add_assoc, ← drop_drop, hrest, hrecord, append_assoc]
      exact drop_left' (by rw [length_append, length_be, hlen]; rfl)
    have hsnoc := (hrest ▸ hframed).snoc hr
    -- the packet of this round, whether or not the output takes it
    have hsent : ∀ packet ∈ (track output (handed, msgOffset) r).1.1,
        ∃ r, IsRecord msg packet r := by
      cases output with
      | none => exact hhanded
      | some sendPacket =>
        intro packet hpacket
        obtain hold | hnew := mem_append.mp hpacket
        · exact hhanded packet hold
        · rw [mem_singleton] at hnew
          subst hnew
          exact ⟨r, ⟨rs, tail, hsnoc, by omega, hdata, by dsimp only; omega⟩, rfl, rfl⟩
    rw [hrest, handlePackets_cons _ hr]
    split_ifs
    · exact hsent
    · rw [← hnext] at hsnoc ⊢
      exact ih hsnoc (by omega) (by rw [length_append, length_singleton]; omega) hsent

/-- What was handed over is never taken back. -/
theorem handed_stays (output : Output) {packet : HandedAt} {n i : ℕ} {state : List HandedAt × ℕ}
    (rest : List UInt8) (h : packet ∈ state.1) :
    packet ∈ (handlePackets (track output) n i state rest).1.1 := by
  induction n generalizing i state rest with
  | zero => exact h
  | succ n ih =>
    obtain ⟨e, hrefused⟩ | ⟨record, r, tail, rfl, hr⟩ :=
      handlePackets_cases (track output) n i state rest
    · rw [hrefused]
      exact h
    have hsent : packet ∈ (track output state r).1.1 := by
      cases output with
      | none => exact h
      | some sendPacket => exact mem_append_left _ h
    rw [handlePackets_cons _ hr]
    split_ifs
    · exact hsent
    · exact ih tail hsent

/-- The file output gets every record. -/
theorem file_hands {images : List (List UInt8)} (henc : List.Forall₂ Encodes images rs)
    (tail : List UInt8) {n i : ℕ} (state : List HandedAt × ℕ) (hcount : rs.length ≤ n) :
    ∀ r ∈ rs, ∃ packet ∈ (handlePackets (track fileOutput) n i state (images.flatten ++ tail)).1.1,
      packet.hdr = r.hdr ∧ packet.recordEnd = packet.pktData + r.frame.length := by
  induction henc generalizing n i state with
  | nil => exact fun r hr => nomatch hr
  | @cons record r images rs hr _ ih =>
    obtain ⟨n, rfl⟩ : ∃ m, n = m + 1 := ⟨n - 1, by rw [length_cons] at hcount; omega⟩
    rw [flatten_cons, append_assoc, handlePackets_cons _ hr, if_neg fun hne => hne rfl]
    intro r' hr'
    obtain rfl | hrest := mem_cons.mp hr'
    · exact ⟨_, handed_stays fileOutput _ (mem_append_right _ (mem_singleton_self _)),
        rfl, rfl⟩
    · exact ih _ (Nat.le_of_succ_le_succ hcount) r' hrest

end Handed

/-- **The capture length.** The decoder ends without a read outside of the message, and the `caplen`
bytes are in the record exactly if the header of no record counts more bytes than the record has. -/
theorem recv_caplen_in_record_iff (msg : List UInt8) :
    (∀ output, ∃ handed result, handleZmqMsgAt output msg = .ok (handed, result) ∧
      ∀ packet ∈ handed, packet.pktData ≤ packet.recordEnd ∧ packet.recordEnd ≤ msg.length ∧
        ∃ r, IsRecord msg packet r) ∧
    ((∀ output handed result, handleZmqMsgAt output msg = .ok (handed, result) →
        ∀ packet ∈ handed, packet.pktData + packet.hdr.caplen.toNat ≤ packet.recordEnd) ↔
      ∀ rs tail, Framed msg rs tail → rs.length ≤ pktsNum msg →
        ∀ r ∈ rs, r.hdr.caplen.toNat ≤ r.frame.length) := by
  have hrecords : ∀ output, ∀ packet ∈ (handleZmqMsg (track output) ([], batchHdrSize) msg).1.1,
      ∃ r, IsRecord msg packet r := by
    intro output
    rw [handleZmqMsg]
    split_ifs with hsize
    · exact fun packet hpacket => nomatch hpacket
    · rw [not_lt] at hsize
      have hframed : Framed msg [] (msg.drop batchHdrSize) :=
        ⟨msg.take batchHdrSize, [], by simp, length_take_of_le hsize, .nil⟩
      exact handed_isRecord output hframed hsize (by simp) fun packet hpacket => nomatch hpacket
  refine ⟨?_, ?_, ?_⟩
  · intro output
    refine ⟨_, _, handleZmqMsgAt_eq output msg, ?_⟩
    intro packet hpacket
    obtain ⟨r, hr⟩ := hrecords output packet hpacket
    obtain ⟨rs, tail, -, -, -, hend⟩ := hr.framed
    exact ⟨by rw [hr.recordEnd_eq]; omega, by omega, r, hr⟩
  · intro hsafe rs tail hframed hcount r hr
    obtain ⟨batch, images, hmsg, hbatch, henc⟩ := hframed
    have hrun : handleZmqMsg (track fileOutput) ([], batchHdrSize) msg =
        handlePackets (track fileOutput) (pktsNum msg) 0 ([], batchHdrSize)
          (images.flatten ++ tail) := by
      rw [handleZmqMsg, if_neg (by rw [hmsg]; simp [hbatch])]
      congr 1
      rw [hmsg, append_assoc, ← hbatch, drop_left]
    obtain ⟨packet, hpacket, hhdr, hend⟩ := file_hands henc tail (i := 0) ([], batchHdrSize) hcount
      r hr
    have hle := hsafe fileOutput _ _ (handleZmqMsgAt_eq fileOutput msg) packet (hrun ▸ hpacket)
    rw [hhdr, hend] at hle
    omega
  · intro hframes output handed result hrun packet hpacket
    rw [handleZmqMsgAt_eq] at hrun
    cases hrun
    obtain ⟨r, hr⟩ := hrecords output packet hpacket
    obtain ⟨rs, tail, hframed, hcount, -⟩ := hr.framed
    have hmany : (rs ++ [r]).length ≤ pktsNum msg := by
      rw [length_append]
      exact hcount
    have hle := hframes (rs ++ [r]) tail hframed hmany r (by simp)
    rw [hr.hdr_eq, hr.recordEnd_eq]
    omega

/-- A message with one record of no data, whose header counts 1500 bytes. -/
def overlongMsg : List UInt8 :=
  be 2 1 ++ be 2 1 ++ be 4 0 ++ List.replicate 16 0 ++
    (be 2 0 ++ (be 4 0 ++ be 4 0 ++ be 4 1500 ++ be 4 1500))

/-- The header says 1500 bytes where the message ends, and the file output reads behind it. -/
theorem recv_reads_behind_message :
    overlongMsg.length = 42 ∧
      handleZmqMsgAt fileOutput overlongMsg = .ok ([⟨⟨⟨0, 0⟩, 1500, 1500⟩, 42, 42⟩], .ok ()) ∧
      pcapDump overlongMsg ⟨⟨⟨0, 0⟩, 1500, 1500⟩, 42, 42⟩ = .error (.read 42) := by
  have hload : load overlongMsg overlongMsg.length 42 = .error (.read 42) := if_neg (by decide)
  refine ⟨by decide, by decide +kernel, ?_⟩
  exact congrArg (· >>= fun byte => do
    let bytes ← loadBytes overlongMsg overlongMsg.length 43 1499
    return byte :: bytes) hload

end CloudProbe.Tools
