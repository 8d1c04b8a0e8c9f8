import CloudProbe.Worker.Checksum
import CloudProbe.Worker.Packet

/-!
# Splitting a frame at its TCP or UDP payload

`parsePacket` gives the offsets of the headers of a captured frame. The model reads from the
captured bytes only; the offsets of the source are 16 bits wide and stay below the captured length,
which is at most 65535 where the splitter is used. Fragment `i` repeats the headers and carries the
`i`-th piece of the payload (`buildFragment`).

Sources without a file are in `packet_split.c`.
-/

namespace CloudProbe.Worker

open Lib

/-- `packet_parse_result_t`; the pointers it holds are the offsets added to the frame.
Source: `packet_split.h` -/
structure PacketParseResult where
  isIpv4 : Bool
  isIpv6 : Bool
  isTcp : Bool
  isUdp : Bool
  hasVlan : Bool
  vlanOffset : ℕ
  ipOffset : ℕ
  l4Offset : ℕ
  payloadOffset : ℕ
  ipHdrLen : ℕ
  ipv6ExtLen : ℕ
  l4HdrLen : ℕ
  payloadLen : ℕ
deriving DecidableEq, Repr

def byteAt (frame : List UInt8) (i : ℕ) : ℕ := (frame.getD i 0).toNat

def u16At (frame : List UInt8) (i : ℕ) : ℕ := ofBe ((frame.drop i).take 2)

def u32At (frame : List UInt8) (i : ℕ) : ℕ := ofBe ((frame.drop i).take 4)

/-- The loop over the VLAN tags: the type and the offset after them, `none` when a tag is cut.
`rest` are the captured bytes from `offset` on.
Source: `parse_packet` -/
def skipVlanTags (etherType offset : ℕ) (rest : List UInt8) : Option (ℕ × ℕ) :=
  if isVlanEthertype etherType then
    match rest with
    | _ :: _ :: t₁ :: t₂ :: rest => skipVlanTags (ofBe [t₁, t₂]) (offset + 4) rest
    | _ => none
  else some (etherType, offset)

/-- `IPPROTO_HOPOPTS`, `IPPROTO_ROUTING` and `IPPROTO_DSTOPTS`. -/
def isIpv6Ext (nexthdr : ℕ) : Bool := nexthdr = 0 || nexthdr = 43 || nexthdr = 60

/-- The loop over the IPv6 extension headers: the next header and the total length of those skipped.
`rest` are the captured bytes from the first of them on.
Source: `parse_packet` -/
def skipIpv6Exts (nexthdr extLen : ℕ) (rest : List UInt8) : Option (ℕ × ℕ) :=
  if isIpv6Ext nexthdr then
    match rest with
    | next :: len :: tail =>
      let extTotal := (len.toNat + 1) * 8
      if (next :: len :: tail).length < extTotal then none
      else skipIpv6Exts next.toNat (extLen + extTotal) ((next :: len :: tail).drop extTotal)
    | _ => none
  else some (nexthdr, extLen)
termination_by rest.length
decreasing_by
  simp only [List.length_drop, List.length_cons]
  omega

def ipprotoTcp : ℕ := 6

def ipprotoUdp : ℕ := 17

/-- The length of the TCP or UDP header at `offset`; other protocols are not split.
Source: `parse_packet` -/
def parseL4 (frame : List UInt8) (protocol offset : ℕ) : Option ℕ :=
  if protocol = ipprotoTcp then
    if frame.length < offset + 20 then none
    else
      let words := byteAt frame (offset + 12) / 16
      if words < 5 then none
      else if frame.length < offset + words * 4 then none
      else some (words * 4)
  else if protocol = ipprotoUdp then
    if frame.length < offset + 8 then none else some 8
  else none

/-- Payload lengths are cut to the captured bytes.
Source: `parse_packet` -/
def clampPayload (frame : List UInt8) (r : PacketParseResult) : Option PacketParseResult :=
  if frame.length < r.payloadOffset then none
  else
    let maxPayload := frame.length - r.payloadOffset
    some { r with payloadLen := if maxPayload < r.payloadLen then maxPayload else r.payloadLen }

/-- The IPv4 branch: the header is at `offset`.
Source: `parse_packet` -/
def parseIpv4 (frame : List UInt8) (hasVlan : Bool) (offset : ℕ) : Option PacketParseResult := do
  if frame.length < offset + 20 then none
  let ihl := byteAt frame offset % 16
  if ihl < 5 then none
  let ipHdrLen := ihl * 4
  if frame.length < offset + ipHdrLen then none
  -- a fragment carries only part of the L4 datagram: neither MF nor an offset may be set
  if u16At frame (offset + 6) % 0x4000 ≠ 0 then none
  let protocol := byteAt frame (offset + 9)
  let l4HdrLen ← parseL4 frame protocol (offset + ipHdrLen)
  let totLen := u16At frame (offset + 2)
  if totLen < ipHdrLen + l4HdrLen then none
  some {
    isIpv4 := true
    isIpv6 := false
    isTcp := protocol = ipprotoTcp
    isUdp := protocol = ipprotoUdp
    hasVlan := hasVlan
    vlanOffset := if hasVlan then etherHeaderLen else 0
    ipOffset := offset
    l4Offset := offset + ipHdrLen
    payloadOffset := offset + ipHdrLen + l4HdrLen
    ipHdrLen := ipHdrLen
    ipv6ExtLen := 0
    l4HdrLen := l4HdrLen
    payloadLen := totLen - (ipHdrLen + l4HdrLen) }

/-- The IPv6 branch: the header is at `offset`.
Source: `parse_packet` -/
def parseIpv6 (frame : List UInt8) (hasVlan : Bool) (offset : ℕ) : Option PacketParseResult := do
  if frame.length < offset + 40 then none
  let (nexthdr, extLen) ← skipIpv6Exts (byteAt frame (offset + 6)) 0 (frame.drop (offset + 40))
  -- a fragment header (44) is no L4 protocol either
  let l4HdrLen ← parseL4 frame nexthdr (offset + 40 + extLen)
  let payloadLen := u16At frame (offset + 4)
  if payloadLen < extLen + l4HdrLen then none
  some {
    isIpv4 := false
    isIpv6 := true
    isTcp := nexthdr = ipprotoTcp
    isUdp := nexthdr = ipprotoUdp
    hasVlan := hasVlan
    vlanOffset := if hasVlan then etherHeaderLen else 0
    ipOffset := offset
    l4Offset := offset + 40 + extLen
    payloadOffset := offset + 40 + extLen + l4HdrLen
    ipHdrLen := 40
    ipv6ExtLen := extLen
    l4HdrLen := l4HdrLen
    payloadLen := payloadLen - extLen - l4HdrLen }

/-- Source: `parse_packet`; `frame` are the first `caplen` bytes of the packet -/
def parsePacket (frame : List UInt8) : Option PacketParseResult := do
  if frame.length < etherHeaderLen then none
  let firstType := u16At frame 12
  let (etherType, offset) ← skipVlanTags firstType etherHeaderLen (frame.drop etherHeaderLen)
  let r ←
    if etherType = 0x0800 then parseIpv4 frame (isVlanEthertype firstType) offset
    else if etherType = 0x86dd then parseIpv6 frame (isVlanEthertype firstType) offset
    else none
  clampPayload frame r

def calculateFragmentCount (r : PacketParseResult) (maxPayloadSize : ℕ) : ℕ :=
  if maxPayloadSize = 0 ∨ r.payloadLen ≤ maxPayloadSize then 1
  else (r.payloadLen + maxPayloadSize - 1) / maxPayloadSize

def PacketParseResult.ipHdr (r : PacketParseResult) (fragment : List UInt8) : IpHdr :=
  if r.isIpv4 then .v4 (fragment.drop r.ipOffset) else .v6 (fragment.drop r.ipOffset)

/-- The IP layer of a fragment with `size` payload bytes.
Source: `build_fragment`, "Update IP layer" -/
def updateIp (sse2 : Bool) (r : PacketParseResult) (recalculateChecksum : Bool) (size : ℕ)
    (fragment : List UInt8) : List UInt8 :=
  if r.isIpv4 then
    let fragment := patch fragment (r.ipOffset + 2) (be 2 (r.ipHdrLen + r.l4HdrLen + size))
    if recalculateChecksum then
      let fragment := patch fragment (r.ipOffset + 10) [0, 0]
      patch fragment (r.ipOffset + 10)
        (leBytes (calculateIpChecksum sse2 (fragment.drop r.ipOffset)))
    else fragment
  else if r.isIpv6 then
    patch fragment (r.ipOffset + 4) (be 2 (r.ipv6ExtLen + r.l4HdrLen + size))
  else fragment

/-- The TCP or UDP layer of a fragment whose payload starts at `payloadOffset` of the whole payload.
Source: `build_fragment`, "Update L4 layer" -/
def updateL4 (sse2 : Bool) (r : PacketParseResult) (recalculateChecksum : Bool)
    (payloadOffset size : ℕ) (fragment : List UInt8) : List UInt8 :=
  let segment (fragment : List UInt8) := (fragment.drop r.l4Offset).take (r.l4HdrLen + size)
  if r.isTcp then
    let seq := u32At fragment (r.l4Offset + 4)
    let fragment := patch fragment (r.l4Offset + 4) (be 4 (seq + payloadOffset))
    if recalculateChecksum then
      let fragment := patch fragment (r.l4Offset + 16) [0, 0]
      patch fragment (r.l4Offset + 16)
        (leBytes (calculateTcpChecksum sse2 (r.ipHdr fragment) (segment fragment)))
    else fragment
  else if r.isUdp then
    let fragment := patch fragment (r.l4Offset + 4) (be 2 (r.l4HdrLen + size))
    if recalculateChecksum then
      let fragment := patch fragment (r.l4Offset + 6) [0, 0]
      patch fragment (r.l4Offset + 6)
        (leBytes (udpChecksumForWire
          (calculateUdpChecksum sse2 (r.ipHdr fragment) (segment fragment))))
    else fragment
  else fragment

/-- Fragment `index`, or `none` when there is no payload left for it.
Source: `build_fragment` -/
def buildFragment (sse2 : Bool) (r : PacketParseResult) (data : List UInt8)
    (index maxPayloadSize : ℕ) (recalculateChecksum : Bool) : Option (List UInt8) :=
  let payloadOffset := index * maxPayloadSize
  let remaining := r.payloadLen - payloadOffset
  let size := if maxPayloadSize < remaining then maxPayloadSize else remaining
  if size = 0 then none
  else
    let fragment := data.take r.payloadOffset ++
      (data.drop (r.payloadOffset + payloadOffset)).take size
    some (updateL4 sse2 r recalculateChecksum payloadOffset size
      (updateIp sse2 r recalculateChecksum size fragment))

/-- **Every fragment can be built**: a fragment that is counted has payload left. -/
theorem buildFragment_isSome (sse2 : Bool) (r : PacketParseResult) (data : List UInt8)
    {index maxPayloadSize : ℕ} (recalculateChecksum : Bool)
    (hsplit : calculateFragmentCount r maxPayloadSize ≠ 1)
    (hindex : index < calculateFragmentCount r maxPayloadSize) :
    (buildFragment sse2 r data index maxPayloadSize recalculateChecksum).isSome = true := by
  rw [calculateFragmentCount] at hsplit hindex
  split_ifs at hsplit hindex with hwhole
  · exact absurd rfl hsplit
  · have hmax : 0 < maxPayloadSize := by omega
    have hleft : index * maxPayloadSize < r.payloadLen := by
      have hle : index * maxPayloadSize + maxPayloadSize ≤ r.payloadLen + maxPayloadSize - 1 := by
        calc index * maxPayloadSize + maxPayloadSize = (index + 1) * maxPayloadSize := by
              rw [Nat.add_mul, Nat.one_mul]
          _ ≤ (r.payloadLen + maxPayloadSize - 1) / maxPayloadSize * maxPayloadSize :=
              Nat.mul_le_mul_right _ hindex
          _ ≤ r.payloadLen + maxPayloadSize - 1 := Nat.div_mul_le_self _ _
      omega
    simp only [buildFragment]
    split_ifs with hlarge hzero hzero
    · omega
    · rfl
    · omega
    · rfl

end CloudProbe.Worker
