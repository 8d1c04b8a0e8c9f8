import CloudProbe.Lib.SequenceSpace
import CloudProbe.Worker.SplitFrames

/-!
# What the fragments of a TCP frame say about the stream

Fragments are pieces of the segment that `parse_packet` finds in a frame (`segmentOf`):
`build_fragment` moves the sequence number on and copies the flags to every fragment.
-/

namespace CloudProbe.Worker

open Lib List Option

/-- The byte of the TCP flags.
Source: `tcp.h` `th_flags` -/
def PacketParseResult.tcpFlags (r : PacketParseResult) (frame : List UInt8) : ℕ :=
  byteAt frame (r.l4Offset + 13)

def hasSyn (flags : ℕ) : Bool := flags / 2 % 2 = 1

def hasFin (flags : ℕ) : Bool := flags % 2 = 1

def PacketParseResult.segment (r : PacketParseResult) (frame : List UInt8) : Segment where
  seq := UInt32.ofNat (u32At frame (r.l4Offset + 4))
  syn := hasSyn (r.tcpFlags frame)
  fin := hasFin (r.tcpFlags frame)
  payload := (frame.drop r.payloadOffset).take r.payloadLen

/-- The captured segment of a frame, if it is accepted and has one. -/
def segmentOf (frame : List UInt8) : Option Segment :=
  match parsePacket frame with
  | some r => if r.isTcp then some (r.segment frame) else none
  | none => none

def Says (frame : List UInt8) (x : SeqFact) : Prop := ∃ s, segmentOf frame = some s ∧ s.Says x

section Stream

variable {frame : List UInt8} {r : PacketParseResult} {max : ℕ}

/-- The segment in a fragment is a piece of the segment. -/
theorem segmentOf_fragment (h : Parsed frame r) (htcp : r.isTcp = true) {i size : ℕ}
    {recalculateChecksum : Bool} {f : List UInt8} (hsize : size = min max (r.payloadLen - i * max))
    (hf : IsFragment recalculateChecksum frame r (i * max) size f) :
    segmentOf f = some ((r.segment frame).piece max i) := by
  have htcpLen := h.shape.tcp htcp
  have hl4 := h.shape.l4Offset
  have hhdr := h.shape.ipHdrLen
  have hpayload := h.shape.payloadOffset
  have hflags : byteAt f (r.l4Offset + 13) = byteAt frame (r.l4Offset + 13) :=
    byteAt_congr (hf.headers _ (by omega) (not_mem_rewritten (by omega) (by omega)))
  have hseq : UInt32.ofNat (u32At f (r.l4Offset + 4)) =
      UInt32.ofNat (u32At frame (r.l4Offset + 4)) + UInt32.ofNat (i * max) := by
    rw [hf.seq htcp, ← UInt32.ofNat_add]
    apply UInt32.toNat_inj.mp
    simp
  have hpiece : (f.drop r.payloadOffset).take size =
      (((frame.drop r.payloadOffset).take r.payloadLen).drop (i * max)).take max := by
    rw [take_of_length_le hf.payload_length.le, hf.payload, drop_take, take_take, drop_drop, hsize]
  simp only [segmentOf, hf.parses, htcp, if_true, PacketParseResult.segment,
    PacketParseResult.tcpFlags, Segment.piece, hflags, hseq, hpiece]

/-- **The stream of a split frame** is that of the frame exactly when it has neither SYN nor FIN:
every fragment repeats both flags. -/
theorem tcp_stream_kept_iff (frame : List UInt8) (r : PacketParseResult) (max : ℕ)
    (sse2 recalculateChecksum : Bool) (hparse : parsePacket frame = some r) (htcp : r.isTcp = true)
    (hcount : 1 < calculateFragmentCount r max) :
    (∀ x, (∃ i < calculateFragmentCount r max, ∃ f,
        buildFragment sse2 r frame i max recalculateChecksum = some f ∧ Says f x) ↔
      Says frame x) ↔
    hasSyn (r.tcpFlags frame) = false ∧ hasFin (r.tcpFlags frame) = false := by
  have h := (parsePacket_eq_some_iff frame r).mp hparse
  obtain ⟨hmax, hlen, hn⟩ := calculateFragmentCount_of_lt hcount
  have hcaptured := h.shape.captured
  have htotal := h.shape.total
  have hpayload : (r.segment frame).payload.length = r.payloadLen := by
    simp only [PacketParseResult.segment, length_take, length_drop]
    omega
  have hwhole : ∀ x, Says frame x ↔ (r.segment frame).Says x := by
    intro x
    simp only [Says, segmentOf, hparse, htcp, if_true, some.injEq, exists_eq_left']
  have hpiece : ∀ i < calculateFragmentCount r max, ∀ x,
      (∃ f, buildFragment sse2 r frame i max recalculateChecksum = some f ∧ Says f x) ↔
        ((r.segment frame).piece max i).Says x := by
    intro i hi x
    have hstart : i * max < r.payloadLen := mul_lt_of_lt_count hmax (hn ▸ hi)
    have hfragment : IsFragment recalculateChecksum frame r (i * max)
        (min max (r.payloadLen - i * max)) _ := h.isFragment (by omega) sse2 recalculateChecksum
    simp only [h.buildFragment hmax hstart, some.injEq, exists_eq_left', Says,
      segmentOf_fragment h htcp rfl hfragment]
  have hpieces : ∀ x, (∃ i < calculateFragmentCount r max, ∃ f,
      buildFragment sse2 r frame i max recalculateChecksum = some f ∧ Says f x) ↔
        ∃ i < calculateFragmentCount r max, ((r.segment frame).piece max i).Says x := by
    intro x
    constructor
    · rintro ⟨i, hi, hf⟩
      exact ⟨i, hi, (hpiece i hi x).mp hf⟩
    · rintro ⟨i, hi, hsays⟩
      exact ⟨i, hi, (hpiece i hi x).mpr hsays⟩
  simp only [hpieces, hwhole]
  exact Segment.pieces_say_iff hmax hcount (by omega) (by omega)
    (by rw [hpayload, hn]; exact le_count_mul hmax)

end Stream

/-- A TCP segment over IPv4 with the given flags and two bytes of payload. -/
def tcpFrame (flags : UInt8) : List UInt8 :=
  List.replicate 12 0 ++ [0x08, 0x00] ++
    [0x45, 0, 0, 42, 0, 0, 0, 0, 64, 6, 0, 0, 10, 0, 0, 1, 10, 0, 0, 2] ++
    [0x10, 0, 0x20, 0, 0, 0, 0, 0, 0, 0, 0, 0, 0x50, flags, 0, 0, 0, 0, 0, 0] ++ [1, 2]

theorem parsePacket_tcpFrame : ∀ flags ∈ [(0x18 : UInt8), 0x11], parsePacket (tcpFrame flags) =
    some ⟨true, false, true, false, false, 0, 14, 34, 54, 20, 0, 20, 2⟩ := by
  decide +kernel

/-- A segment with ACK and PSH keeps its bytes when it is split. -/
theorem tcp_stream_kept_iff_data :
    let r : PacketParseResult := ⟨true, false, true, false, false, 0, 14, 34, 54, 20, 0, 20, 2⟩
    parsePacket (tcpFrame 0x18) = some r ∧ 1 < calculateFragmentCount r 1 ∧
      ∀ x, (∃ i < calculateFragmentCount r 1, ∃ f,
        buildFragment true r (tcpFrame 0x18) i 1 true = some f ∧ Says f x) ↔
      Says (tcpFrame 0x18) x := by
  intro r
  have hparse := parsePacket_tcpFrame 0x18 (by decide)
  have hcount : 1 < calculateFragmentCount r 1 := by decide
  exact ⟨hparse, hcount, (tcp_stream_kept_iff (tcpFrame 0x18) r 1 true true hparse rfl hcount).mpr
    (by decide)⟩

/-- A segment with FIN: its first fragment says that the stream ends before the second byte. -/
theorem fin_in_first_fragment :
    let r : PacketParseResult := ⟨true, false, true, false, false, 0, 14, 34, 54, 20, 0, 20, 2⟩
    parsePacket (tcpFrame 0x11) = some r ∧
      (∃ f, buildFragment true r (tcpFrame 0x11) 0 1 false = some f ∧ Says f (.fin 1)) ∧
      ¬ Says (tcpFrame 0x11) (.fin 1) := by
  intro r
  have hwhole : segmentOf (tcpFrame 0x11) = some ⟨0, false, true, [1, 2]⟩ := by decide +kernel
  have hfirst : (buildFragment true r (tcpFrame 0x11) 0 1 false).bind segmentOf =
      some ⟨0, false, true, [1]⟩ := by decide +kernel
  obtain ⟨f, hbuild, hsegment⟩ := bind_eq_some_iff.mp hfirst
  refine ⟨parsePacket_tcpFrame 0x11 (by decide), ⟨f, hbuild, _, hsegment, .fin rfl⟩, ?_⟩
  rintro ⟨s, hs, hsays⟩
  obtain rfl := some.inj (hwhole.symm.trans hs)
  cases hsays

end CloudProbe.Worker
