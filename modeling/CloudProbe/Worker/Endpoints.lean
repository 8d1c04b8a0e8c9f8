import CloudProbe.Worker.SplitFrames
import CloudProbe.Worker.ReqPattern

/-!
# The splitter and the direction code read the same endpoints

`parse_packet` and the extraction of `req_pattern.c` walk the same frame with loops of their own.
They part at IPv6 extension headers: `parse_packet` passes over them, the extraction compares the
first next header with TCP and UDP and gives up. So the two see the same endpoints exactly when
there is no extension header (`same_endpoints_iff`).
-/

namespace CloudProbe.Worker

open Lib List

/-! ## The two walks -/

/-- Both parsers pass the same tag stack. -/
theorem skipTagStack_eq (frame : List UInt8) (ethType offset : ℕ) :
    skipTagStack frame ethType offset = skipVlanTags ethType offset (frame.drop offset) := by
  fun_induction skipTagStack frame ethType offset with
  | case1 ethType offset hvlan hcut =>
    have hshort : (frame.drop offset).length < 4 := by
      rw [length_drop]
      omega
    unfold skipVlanTags
    rw [if_pos hvlan]
    split
    · next heq =>
      rw [heq] at hshort
      simp only [length_cons] at hshort
      omega
    · rfl
  | case2 ethType offset hvlan hcaptured ih =>
    obtain ⟨a, b, t₁, t₂, hdrop⟩ : ∃ a b t₁ t₂,
        frame.drop offset = a :: b :: t₁ :: t₂ :: frame.drop (offset + 4) := by
      refine ⟨frame[offset], frame[offset + 1], frame[offset + 2], frame[offset + 3], ?_⟩
      rw [drop_eq_getElem_cons, drop_eq_getElem_cons, drop_eq_getElem_cons, drop_eq_getElem_cons]
    have htype : u16At frame (offset + 2) = ofBe [t₁, t₂] := by
      rw [u16At, ← drop_drop, hdrop]
      rfl
    rw [hdrop, skipVlanTags, if_pos hvlan, ih, htype]
  | case3 ethType offset hvlan =>
    unfold skipVlanTags
    rw [if_neg hvlan]

theorem lt_of_skipIpv6Exts {nexthdr extLen nexthdr' extLen' : ℕ} {rest : List UInt8}
    (hext : isIpv6Ext nexthdr = true)
    (h : skipIpv6Exts nexthdr extLen rest = some (nexthdr', extLen')) : extLen < extLen' := by
  unfold skipIpv6Exts at h
  rw [if_pos hext] at h
  split at h
  · simp only at h
    split_ifs at h with hcut
    obtain ⟨exts, -, -, hlen, -⟩ := skipIpv6Exts_append h
    omega
  · cases h

/-- The next header is the protocol, or an extension header. -/
theorem Ipv6Header.nexthdr {frame : List UInt8} {r : PacketParseResult} (h : Ipv6Header frame r) :
    (r.ipv6ExtLen = 0 ∧ r.isTcp = decide (byteAt frame (r.ipOffset + 6) = ipprotoTcp) ∧
        r.isUdp = decide (byteAt frame (r.ipOffset + 6) = ipprotoUdp)) ∨
      (r.ipv6ExtLen ≠ 0 ∧ isIpv6Ext (byteAt frame (r.ipOffset + 6)) = true) := by
  obtain ⟨protocol, hwalk, htcp, hudp⟩ := h.exts
  by_cases hext : isIpv6Ext (byteAt frame (r.ipOffset + 6)) = true
  · exact .inr ⟨(lt_of_skipIpv6Exts hext hwalk).ne', hext⟩
  · unfold skipIpv6Exts at hwalk
    rw [if_neg hext] at hwalk
    obtain ⟨rfl, hlen⟩ := Prod.mk.inj (Option.some.inj hwalk)
    exact .inl ⟨hlen.symm, htcp, hudp⟩

/-! ## The layers of the extraction -/

/-- What the two IP layers do behind the IP header.
Source: `req_pattern.c` `extract_ipport_from_ipv4_layer`, `extract_ipport_from_ipv6_layer` -/
def extractL4 (frame : List UInt8) (protocol offset : ℕ) (out : Endpoints) : ℕ × Endpoints :=
  if protocol = ipprotoTcp then
    let (flags, out) := extractIpportFromTcpLayer frame offset out
    (ipportFlagsIp ||| flags, out)
  else if protocol = ipprotoUdp then
    let (flags, out) := extractIpportFromUdpLayer frame offset out
    (ipportFlagsIp ||| flags, out)
  else (ipportFlagsIp, out)

section Layers

variable {frame : List UInt8} {offset : ℕ}

theorem extractIpportFromIpv4Layer_eq (hcaptured : offset + 20 ≤ frame.length) (out : Endpoints) :
    extractIpportFromIpv4Layer frame offset out =
      extractL4 frame (byteAt frame (offset + 9)) (offset + byteAt frame offset % 16 * 4)
        ⟨some (ipv4At frame (offset + 12)), 0, some (ipv4At frame (offset + 16)), 0⟩ := by
  rw [extractIpportFromIpv4Layer, if_neg (Nat.not_lt.mpr hcaptured)]
  rfl

theorem extractIpportFromIpv6Layer_eq (hcaptured : offset + 40 ≤ frame.length) (out : Endpoints) :
    extractIpportFromIpv6Layer frame offset out =
      extractL4 frame (byteAt frame (offset + 6)) (offset + 40)
        ⟨some (ipv6At frame (offset + 8)), 0, some (ipv6At frame (offset + 24)), 0⟩ := by
  rw [extractIpportFromIpv6Layer, if_neg (Nat.not_lt.mpr hcaptured)]
  rfl

theorem toNat_portAt (frame : List UInt8) (i : ℕ) : (portAt frame i).toNat = u16At frame i :=
  UInt16.toNat_ofNat_of_lt' (u16At_lt frame i)

/-- Where there is an L4 header, the extraction reads its ports. -/
theorem L4Header.extractL4_eq {isTcp isUdp : Bool} {protocol len : ℕ}
    (h : L4Header frame isTcp isUdp offset len) (htcp : isTcp = decide (protocol = ipprotoTcp))
    (hudp : isUdp = decide (protocol = ipprotoUdp))
    (hport : isTcp = true ∨ ¬ (4700 ≤ u16At frame (offset + 2) ∧ u16At frame (offset + 2) ≤ 4799))
    (out : Endpoints) :
    extractL4 frame protocol offset out = (ipportFlagsIp ||| ipportFlagsPort,
      { out with sport := portAt frame offset, dport := portAt frame (offset + 2) }) := by
  have hcaptured := h.captured
  rw [extractL4]
  rcases h.kind with ⟨rfl, -, -, hlen⟩ | ⟨rfl, rfl, rfl⟩
  · rw [if_pos (of_decide_eq_true htcp.symm), extractIpportFromTcpLayer, if_neg (by omega)]
  · have houtside : ¬ (4700 ≤ portAt frame (offset + 2) ∧ portAt frame (offset + 2) < 4800) := by
      rw [UInt16.le_iff_toNat_le, UInt16.lt_iff_toNat_lt, toNat_portAt]
      have hplain := hport.resolve_left Bool.false_ne_true
      simp only [UInt16.reduceToNat]
      omega
    rw [if_neg (of_decide_eq_false htcp.symm), if_pos (of_decide_eq_true hudp.symm),
      extractIpportFromUdpLayer, if_neg (by omega), if_neg houtside]

theorem extractL4_of_isIpv6Ext {nexthdr : ℕ} (h : isIpv6Ext nexthdr = true) (out : Endpoints) :
    extractL4 frame nexthdr offset out = (ipportFlagsIp, out) := by
  have hcases : nexthdr = 0 ∨ nexthdr = 43 ∨ nexthdr = 60 := by
    simpa [isIpv6Ext, or_assoc] using h
  rw [extractL4, ipprotoTcp, ipprotoUdp, if_neg (by omega), if_neg (by omega)]

/-- The extraction comes to the same IP header. -/
theorem Parsed.extractIpportFromEtherLayer_eq {r : PacketParseResult} (h : Parsed frame r)
    (out : Endpoints) :
    extractIpportFromEtherLayer frame 0 out =
      if r.isIpv4 then extractIpportFromIpv4Layer frame r.ipOffset out
      else extractIpportFromIpv6Layer frame r.ipOffset out := by
  have htags : skipTagStack frame (u16At frame (0 + 12)) (0 + etherHeaderLen) =
      some (if r.isIpv4 then 0x0800 else 0x86dd, r.ipOffset) := by
    rw [skipTagStack_eq, Nat.zero_add, Nat.zero_add, h.tags]
  rw [extractIpportFromEtherLayer, if_neg (by have := h.ether; omega)]
  split
  · next hnone =>
    rw [htags] at hnone
    cases hnone
  · next hsome =>
    obtain ⟨rfl, rfl⟩ := Prod.mk.inj (Option.some.inj (htags.symm.trans hsome))
    cases r.isIpv4 <;> rfl

end Layers

/-! ## Agreement -/

/-- The endpoints of an accepted frame: the addresses of the IP header and the two 16-bit fields at
the offset of the L4 header. -/
def PacketParseResult.endpoints (r : PacketParseResult) (frame : List UInt8) : Endpoints where
  sip := some (if r.isIpv4 then ipv4At frame (r.ipOffset + 12) else ipv6At frame (r.ipOffset + 8))
  sport := portAt frame r.l4Offset
  dip := some (if r.isIpv4 then ipv4At frame (r.ipOffset + 16) else ipv6At frame (r.ipOffset + 24))
  dport := portAt frame (r.l4Offset + 2)

/-- **The two parsers see the same endpoints exactly without IPv6 extension headers**, for TCP and
for UDP to a port outside 4700-4799. -/
theorem same_endpoints_iff (frame : List UInt8) (r : PacketParseResult) (out : Endpoints)
    (hparse : parsePacket frame = some r)
    (hport : r.isTcp = true ∨ (r.isUdp = true ∧
      ¬ (4700 ≤ u16At frame (r.l4Offset + 2) ∧ u16At frame (r.l4Offset + 2) ≤ 4799))) :
    extractIpportFromEtherLayer frame 0 out =
      (ipportFlagsIp ||| ipportFlagsPort, r.endpoints frame) ↔ r.ipv6ExtLen = 0 := by
  have hparsed := (parsePacket_eq_some_iff frame r).mp hparse
  have hplain := hport.imp_right And.right
  have hshape := hparsed.shape
  have hcaptured := hshape.captured
  have hpayload := hshape.payloadOffset
  have hl4 := hshape.l4Offset
  rw [hparsed.extractIpportFromEtherLayer_eq, PacketParseResult.endpoints]
  rcases hparsed.ip with ⟨h4, -, hip⟩ | ⟨h4, -, hip⟩
  · have hihl := hip.ihl
    rw [h4, if_pos rfl, if_pos rfl, if_pos rfl, extractIpportFromIpv4Layer_eq (by omega),
      ← hip.ipHdrLen, ← hip.l4Offset, hparsed.l4.extractL4_eq hip.isTcp hip.isUdp hplain]
    exact ⟨fun _ => hip.ipv6ExtLen, fun _ => rfl⟩
  · have hlen := hip.ipHdrLen
    rw [h4, if_neg Bool.false_ne_true, if_neg Bool.false_ne_true, if_neg Bool.false_ne_true,
      extractIpportFromIpv6Layer_eq (by omega)]
    rcases hip.nexthdr with ⟨hnone, htcp, hudp⟩ | ⟨hsome, hext⟩
    · have hoffset : r.ipOffset + 40 = r.l4Offset := by omega
      rw [hoffset, hparsed.l4.extractL4_eq htcp hudp hplain]
      exact ⟨fun _ => hnone, fun _ => rfl⟩
    · rw [extractL4_of_isIpv6Ext hext]
      refine ⟨fun heq => ?_, fun hnone => absurd hnone hsome⟩
      -- the flags differ: no port was found
      have hflags : ipportFlagsIp = ipportFlagsIp ||| ipportFlagsPort := congrArg Prod.fst heq
      exact absurd hflags (by decide)

/-- In the UDP frame both see 10.0.0.1 port 4096 and 10.0.0.2 port 8192. -/
theorem same_endpoints_udp :
    let r : PacketParseResult := ⟨true, false, false, true, false, 0, 14, 34, 42, 20, 0, 8, 3⟩
    parsePacket udpFrame = some r ∧ extractIpportFromEtherLayer udpFrame 0 ⟨none, 0, none, 0⟩ =
      (3, ⟨some (.v4 0x0a000001#32), 4096, some (.v4 0x0a000002#32), 8192⟩) := by
  intro r
  have hendpoints : r.endpoints udpFrame =
      ⟨some (.v4 0x0a000001#32), 4096, some (.v4 0x0a000002#32), 8192⟩ := by decide
  rw [← hendpoints]
  exact ⟨parsePacket_udpFrame, (same_endpoints_iff udpFrame r ⟨none, 0, none, 0⟩
    parsePacket_udpFrame (.inr ⟨rfl, by decide⟩)).mpr rfl⟩

/-- A TCP segment over IPv6 behind a hop-by-hop header. -/
def hopByHopFrame : List UInt8 :=
  List.replicate 12 0 ++ [0x86, 0xdd] ++
    ([0x60, 0, 0, 0, 0, 28, 0, 64] ++ List.replicate 15 0 ++ [1] ++ List.replicate 15 0 ++ [2]) ++
    [6, 0, 1, 4, 0, 0, 0, 0] ++
    [0x10, 0, 0x20, 0, 0, 0, 0, 0, 0, 0, 0, 0, 0x50, 0x10, 0, 0, 0, 0, 0, 0]

/-- Behind the hop-by-hop header `parse_packet` finds the ports; the extraction reports 0 for both.
-/
theorem hop_by_hop_hides_ports :
    let r : PacketParseResult := ⟨false, true, true, false, false, 0, 14, 62, 82, 40, 8, 20, 0⟩
    parsePacket hopByHopFrame = some r ∧ r.isTcp = true ∧
      r.endpoints hopByHopFrame = ⟨some (.v6 1#128), 4096, some (.v6 2#128), 8192⟩ ∧
      extractIpportFromEtherLayer hopByHopFrame 0 ⟨none, 0, none, 0⟩ =
        (ipportFlagsIp, ⟨some (.v6 1#128), 0, some (.v6 2#128), 0⟩) := by
  decide +kernel

end CloudProbe.Worker
