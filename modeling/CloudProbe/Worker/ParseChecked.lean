import CloudProbe.Lib.Checked
import CloudProbe.Worker.Endpoints

/-!
# `parse_packet` stays within the captured bytes

`parsePacket` run under the checker of `Lib.Checked`: every byte is loaded with its index, every
value that the source keeps in a 16-bit variable is assigned to one, and differences may wrap. The
invariant of both loops is that the offset is at most the captured length.

Sources without a file are in `packet_split.c`.
-/

namespace CloudProbe.Worker

open Lib List Option

/-! ## The checked run -/

section Checked

variable (pktData : List UInt8) (caplen : ℕ)

/-- Source: `parse_packet` -/
def skipVlanTagsChecked (etherType offset : ℕ) : Checked (Option (ℕ × ℕ)) := do
  if isVlanEthertype etherType then
    if caplen < offset + 4 then return none
    let etherType ← loadBe pktData caplen (offset + 2) 2
    fit16 (offset + 4)
    skipVlanTagsChecked etherType (offset + 4)
  else return some (etherType, offset)
termination_by caplen - offset

/-- The loop over the IPv6 extension headers, at `offset` after `extLen` bytes of them.
Source: `parse_packet` -/
def skipIpv6ExtsChecked (nexthdr extLen offset : ℕ) : Checked (Option (ℕ × ℕ)) := do
  if isIpv6Ext nexthdr then
    if caplen < offset + 2 then return none
    let extNexthdr ← load pktData caplen offset
    let len ← load pktData caplen (offset + 1)
    let extTotal := (len.toNat + 1) * 8
    fit16 extTotal
    if caplen < offset + extTotal then return none
    fit16 (offset + extTotal)
    fit16 (extLen + extTotal)
    skipIpv6ExtsChecked extNexthdr.toNat (extLen + extTotal) (offset + extTotal)
  else return some (nexthdr, extLen)
termination_by caplen - offset

/-- The TCP or UDP header at `offset`.
Source: `parse_packet` -/
def parseL4Checked (protocol offset : ℕ) : Checked (Option ℕ) := do
  if protocol = ipprotoTcp then
    if caplen < offset + 20 then return none
    let offx2 ← load pktData caplen (offset + 12)
    let words := offx2.toNat / 16
    if words < 5 then return none
    fit16 (words * 4)
    if caplen < offset + words * 4 then return none
    fit16 (offset + words * 4)
    return some (words * 4)
  else if protocol = ipprotoUdp then
    if caplen < offset + 8 then return none
    fit16 (offset + 8)
    return some 8
  else return none

/-- The IPv4 branch.
Source: `parse_packet` -/
def parseIpv4Checked (hasVlan : Bool) (offset : ℕ) : Checked (Option PacketParseResult) := do
  if caplen < offset + 20 then return none
  let vihl ← load pktData caplen offset
  let ihl := vihl.toNat % 16
  if ihl < 5 then return none
  let ipHdrLen := ihl * 4
  fit16 ipHdrLen
  if caplen < offset + ipHdrLen then return none
  let fragOff ← loadBe pktData caplen (offset + 6) 2
  if fragOff % 0x4000 ≠ 0 then return none
  fit16 (offset + ipHdrLen)
  let protocol ← load pktData caplen (offset + 9)
  let some l4HdrLen ← parseL4Checked pktData caplen protocol.toNat (offset + ipHdrLen)
    | return none
  let totLen ← loadBe pktData caplen (offset + 2) 2
  fit16 (ipHdrLen + l4HdrLen)
  if totLen < ipHdrLen + l4HdrLen then return none
  let payloadLen ← sub totLen (ipHdrLen + l4HdrLen)
  return some {
    isIpv4 := true
    isIpv6 := false
    isTcp := protocol.toNat = ipprotoTcp
    isUdp := protocol.toNat = ipprotoUdp
    hasVlan := hasVlan
    vlanOffset := if hasVlan then etherHeaderLen else 0
    ipOffset := offset
    l4Offset := offset + ipHdrLen
    payloadOffset := offset + ipHdrLen + l4HdrLen
    ipHdrLen := ipHdrLen
    ipv6ExtLen := 0
    l4HdrLen := l4HdrLen
    payloadLen := payloadLen }

/-- The IPv6 branch.
Source: `parse_packet` -/
def parseIpv6Checked (hasVlan : Bool) (offset : ℕ) : Checked (Option PacketParseResult) := do
  if caplen < offset + 40 then return none
  fit16 (offset + 40)
  let firstNexthdr ← load pktData caplen (offset + 6)
  let some (nexthdr, extLen) ←
      skipIpv6ExtsChecked pktData caplen firstNexthdr.toNat 0 (offset + 40)
    | return none
  -- a fragment header (44) is no L4 protocol either
  let some l4HdrLen ← parseL4Checked pktData caplen nexthdr (offset + 40 + extLen)
    | return none
  let ipv6PayloadLen ← loadBe pktData caplen (offset + 4) 2
  if ipv6PayloadLen < extLen + l4HdrLen then return none
  let rest ← sub ipv6PayloadLen extLen
  let payloadLen ← sub rest l4HdrLen
  return some {
    isIpv4 := false
    isIpv6 := true
    isTcp := nexthdr = ipprotoTcp
    isUdp := nexthdr = ipprotoUdp
    hasVlan := hasVlan
    vlanOffset := if hasVlan then etherHeaderLen else 0
    ipOffset := offset
    l4Offset := offset + 40 + extLen
    payloadOffset := offset + 40 + extLen + l4HdrLen
    ipHdrLen := 40
    ipv6ExtLen := extLen
    l4HdrLen := l4HdrLen
    payloadLen := payloadLen }

/-- "Validate payload length against actual captured data".
Source: `parse_packet` -/
def clampPayloadChecked (r : PacketParseResult) : Checked (Option PacketParseResult) := do
  if caplen < r.payloadOffset then return none
  let maxPayload ← sub caplen r.payloadOffset
  fit16 maxPayload
  return some { r with
    payloadLen := if maxPayload < r.payloadLen then maxPayload else r.payloadLen }

/-- Source: `parse_packet` -/
def parsePacketChecked : Checked (Option PacketParseResult) := do
  if caplen < etherHeaderLen then return none
  let firstType ← loadBe pktData caplen 12 2
  let some (etherType, offset) ← skipVlanTagsChecked pktData caplen firstType etherHeaderLen
    | return none
  let some r ←
      if etherType = 0x0800 then parseIpv4Checked pktData caplen (isVlanEthertype firstType) offset
      else if etherType = 0x86dd then
        parseIpv6Checked pktData caplen (isVlanEthertype firstType) offset
      else return none
    | return none
  clampPayloadChecked caplen r

end Checked

/-! ## No fault -/

section NoFault

variable {pktData : List UInt8} {caplen : ℕ}

theorem clampPayloadChecked_eq {frame : List UInt8} (hlength : frame.length ≤ 65535)
    (r : PacketParseResult) :
    clampPayloadChecked frame.length r = .ok (clampPayload frame r) := by
  rw [clampPayloadChecked, clampPayload]
  refine Checked.early rfl fun hoffset => ?_
  rw [sub_eq (by omega), Checked.ok_bind, fit16_eq (by omega)]
  rfl

variable (hlen : caplen ≤ pktData.length) (hcaplen : caplen ≤ 65535)

include hlen hcaplen

/-- **The loop lemma** for the VLAN tags. -/
theorem skipVlanTagsChecked_eq (etherType offset : ℕ) :
    skipVlanTagsChecked pktData caplen etherType offset =
      .ok (skipTagStack (pktData.take caplen) etherType offset) := by
  have hlength : (pktData.take caplen).length = caplen := length_take_of_le hlen
  fun_induction skipTagStack (pktData.take caplen) etherType offset with
  | case1 etherType offset hvlan hcut =>
    rw [skipVlanTagsChecked, if_pos hvlan, if_pos (by omega)]
    rfl
  | case2 etherType offset hvlan hcaptured ih =>
    rw [skipVlanTagsChecked, if_pos hvlan, if_neg (by omega), loadBe_eq hlen (by omega),
      Checked.ok_bind, fit16_eq (by omega), Checked.ok_bind]
    exact ih
  | case3 etherType offset hvlan =>
    rw [skipVlanTagsChecked, if_neg hvlan]
    rfl

/-- A round over an extension header. -/
theorem skipIpv6ExtsChecked_round {nexthdr extLen offset : ℕ} {next len : UInt8}
    {tail : List UInt8} (hisExt : isIpv6Ext nexthdr = true) (hext : extLen ≤ offset)
    (hrest : (pktData.take caplen).drop offset = next :: len :: tail) :
    skipIpv6ExtsChecked pktData caplen nexthdr extLen offset =
      if caplen < offset + (len.toNat + 1) * 8 then .ok none
      else skipIpv6ExtsChecked pktData caplen next.toNat (extLen + (len.toNat + 1) * 8)
        (offset + (len.toNat + 1) * 8) := by
  have hleft := congrArg List.length hrest
  rw [length_drop, length_take_of_le hlen, length_cons, length_cons] at hleft
  have hloadLen : load pktData caplen (offset + 1) = .ok len := by
    apply load_of_drop hlen (t := tail)
    rw [← drop_drop, hrest]
    rfl
  have hbyte := len.toNat_lt
  rw [skipIpv6ExtsChecked, if_pos hisExt, if_neg (by omega), load_of_drop hlen hrest,
    Checked.ok_bind, hloadLen, Checked.ok_bind]
  simp only
  rw [fit16_eq (by omega), Checked.ok_bind]
  split_ifs with hcut
  · rfl
  · rw [fit16_eq (by omega), Checked.ok_bind, fit16_eq (by omega), Checked.ok_bind]

/-- **The loop lemma** for the extension headers. -/
theorem skipIpv6ExtsChecked_eq (nexthdr extLen offset : ℕ) (hext : extLen ≤ offset) :
    skipIpv6ExtsChecked pktData caplen nexthdr extLen offset =
      .ok (skipIpv6Exts nexthdr extLen ((pktData.take caplen).drop offset)) := by
  generalize hrest : (pktData.take caplen).drop offset = rest
  have hleft := congrArg List.length hrest
  rw [length_drop, length_take_of_le hlen] at hleft
  fun_induction skipIpv6Exts nexthdr extLen rest generalizing offset with
  | case1 nexthdr extLen hisExt next len tail extTotal hcut =>
    rw [skipIpv6ExtsChecked_round hlen hcaplen hisExt hext hrest, if_pos (by omega)]
  | case2 nexthdr extLen hisExt next len tail extTotal hcaptured ih =>
    rw [skipIpv6ExtsChecked_round hlen hcaplen hisExt hext hrest, if_neg (by omega)]
    apply ih
    · omega
    · rw [← drop_drop, hrest]
    · rw [length_drop]
      omega
  | case3 nexthdr extLen rest hisExt hshort =>
    have hcut : caplen < offset + 2 := by
      rcases rest with _ | ⟨a, _ | ⟨b, tail⟩⟩
      · rw [length_nil] at hleft
        omega
      · rw [length_singleton] at hleft
        omega
      · exact absurd rfl (hshort a b tail)
    rw [skipIpv6ExtsChecked, if_pos hisExt, if_pos hcut]
    rfl
  | case4 nexthdr extLen rest hnot =>
    rw [skipIpv6ExtsChecked, if_neg hnot]
    rfl

/-- The L4 branch makes no bad read. -/
theorem parseL4Checked_eq (protocol offset : ℕ) :
    parseL4Checked pktData caplen protocol offset =
      .ok (parseL4 (pktData.take caplen) protocol offset) := by
  rw [parseL4Checked, parseL4, length_take_of_le hlen]
  by_cases htcp : protocol = ipprotoTcp
  · rw [if_pos htcp, if_pos htcp]
    refine Checked.early rfl fun hcut => ?_
    rw [load_eq hlen (by omega), Checked.ok_bind]
    refine Checked.early rfl fun hfew => ?_
    have hbyte := ((pktData.take caplen).getD (offset + 12) 0).toNat_lt
    rw [fit16_eq (by omega), Checked.ok_bind]
    refine Checked.early rfl fun hopts => ?_
    rw [fit16_eq (by omega)]
    rfl
  · rw [if_neg htcp, if_neg htcp]
    by_cases hudp : protocol = ipprotoUdp
    · rw [if_pos hudp, if_pos hudp]
      refine Checked.early rfl fun hcut => ?_
      rw [fit16_eq (by omega)]
      rfl
    · rw [if_neg hudp, if_neg hudp]
      rfl

/-- The IPv4 branch makes no bad read. -/
theorem parseIpv4Checked_eq (hasVlan : Bool) (offset : ℕ) :
    parseIpv4Checked pktData caplen hasVlan offset =
      .ok (parseIpv4 (pktData.take caplen) hasVlan offset) := by
  have hlength : (pktData.take caplen).length = caplen := length_take_of_le hlen
  rw [parseIpv4Checked, parseIpv4, hlength]
  refine Checked.early rfl fun hcut => ?_
  rw [load_eq hlen (by omega), Checked.ok_bind]
  refine Checked.early rfl fun hihl => ?_
  have hbyte := ((pktData.take caplen).getD offset 0).toNat_lt
  dsimp only
  rw [fit16_eq (by omega), Checked.ok_bind]
  refine Checked.early rfl fun hopts => ?_
  rw [loadBe_eq hlen (by omega), Checked.ok_bind]
  refine Checked.early rfl fun hfrag => ?_
  rw [fit16_eq (by omega), Checked.ok_bind, load_eq hlen (by omega), Checked.ok_bind,
    parseL4Checked_eq hlen hcaplen, Checked.ok_bind]
  dsimp only [byteAt]
  cases hl4 : parseL4 (pktData.take caplen) ((pktData.take caplen).getD (offset + 9) 0).toNat
      (offset + ((pktData.take caplen).getD offset 0).toNat % 16 * 4) with
  | none => rfl
  | some l4HdrLen =>
    have hcaptured := ((parseL4_eq_some_iff _ _ _ _).mp hl4).captured
    dsimp only
    rw [loadBe_eq hlen (by omega), Checked.ok_bind, fit16_eq (by omega), Checked.ok_bind]
    refine Checked.early rfl fun htotal => ?_
    rw [sub_eq (by omega)]
    rfl

/-- The IPv6 branch makes no bad read. -/
theorem parseIpv6Checked_eq (hasVlan : Bool) (offset : ℕ) :
    parseIpv6Checked pktData caplen hasVlan offset =
      .ok (parseIpv6 (pktData.take caplen) hasVlan offset) := by
  have hlength : (pktData.take caplen).length = caplen := length_take_of_le hlen
  rw [parseIpv6Checked, parseIpv6, hlength]
  refine Checked.early rfl fun hcut => ?_
  rw [fit16_eq (by omega), Checked.ok_bind, load_eq hlen (by omega), Checked.ok_bind,
    skipIpv6ExtsChecked_eq hlen hcaplen _ _ _ (Nat.zero_le _), Checked.ok_bind]
  dsimp only [byteAt]
  cases hexts : skipIpv6Exts ((pktData.take caplen).getD (offset + 6) 0).toNat 0
      ((pktData.take caplen).drop (offset + 40)) with
  | none => rfl
  | some found =>
    obtain ⟨nexthdr, extLen⟩ := found
    dsimp only
    rw [parseL4Checked_eq hlen hcaplen, Checked.ok_bind]
    cases hl4 : parseL4 (pktData.take caplen) nexthdr (offset + 40 + extLen) with
    | none =>
      rw [bind_eq_bind, bind_some, hl4]
      rfl
    | some l4HdrLen =>
      rw [bind_eq_bind, bind_some, hl4]
      dsimp only
      rw [loadBe_eq hlen (by omega), Checked.ok_bind]
      refine Checked.early rfl fun htotal => ?_
      rw [sub_eq (by omega), Checked.ok_bind, sub_eq (by omega)]
      rfl

/-- **`parse_packet` runs without a fault** on up to 65535 captured bytes, with the result of the
model. -/
theorem parsePacketChecked_eq :
    parsePacketChecked pktData caplen = .ok (parsePacket (pktData.take caplen)) := by
  have hlength : (pktData.take caplen).length = caplen := length_take_of_le hlen
  have hclamp := clampPayloadChecked_eq (hlength.trans_le hcaplen)
  rw [hlength] at hclamp
  rw [parsePacketChecked, parsePacket, hlength]
  refine Checked.early rfl fun hcut => ?_
  rw [etherHeaderLen] at hcut
  rw [loadBe_eq hlen (by omega), Checked.ok_bind, skipVlanTagsChecked_eq hlen hcaplen,
    Checked.ok_bind, skipTagStack_eq]
  dsimp only [u16At]
  cases htags : skipVlanTags (ofBe (((pktData.take caplen).drop 12).take 2)) etherHeaderLen
      ((pktData.take caplen).drop etherHeaderLen) with
  | none => rfl
  | some found =>
    obtain ⟨etherType, offset⟩ := found
    rw [bind_eq_bind, bind_some]
    dsimp only
    by_cases h4 : etherType = 0x0800
    · rw [if_pos h4, if_pos h4, parseIpv4Checked_eq hlen hcaplen, Checked.ok_bind]
      cases parseIpv4 (pktData.take caplen) _ offset with
      | none => rfl
      | some r => exact hclamp r
    · rw [if_neg h4, if_neg h4]
      split_ifs with h6
      · rw [parseIpv6Checked_eq hlen hcaplen, Checked.ok_bind]
        cases parseIpv6 (pktData.take caplen) _ offset with
        | none => rfl
        | some r => exact hclamp r
      · rfl

end NoFault

/-! ## Safety -/

/-- The headers of an IPv6 packet: a header of type `kind` begins at `offset`. The first one follows
the fixed header; the next one is the one an extension header names, that is, any that is neither
TCP nor UDP nor a fragment header. -/
inductive HeaderAt (frame : List UInt8) (ipOffset : ℕ) : ℕ → ℕ → Prop where
  | first : HeaderAt frame ipOffset (byteAt frame (ipOffset + 6)) (ipOffset + 40)
  | next {kind offset : ℕ} : HeaderAt frame ipOffset kind offset → kind ≠ ipprotoTcp →
      kind ≠ ipprotoUdp → kind ≠ 44 →
      HeaderAt frame ipOffset (byteAt frame offset)
        (offset + (byteAt frame (offset + 1) + 1) * 8)

/-- The packet is a fragment: `MF` or an offset in the IPv4 header, or an IPv6 fragment header. -/
def Fragmented (frame : List UInt8) (r : PacketParseResult) : Prop :=
  if r.isIpv4 then u16At frame (r.ipOffset + 6) % 0x4000 ≠ 0
  else ∃ offset, HeaderAt frame r.ipOffset 44 offset

variable {frame : List UInt8}

theorem byteAt_of_drop {t : List UInt8} {i : ℕ} {byte : UInt8} (h : frame.drop i = byte :: t) :
    byteAt frame i = byte.toNat := by
  have hget : frame[i]? = some byte := by
    rw [← Nat.add_zero i, ← List.getElem?_drop, h]
    rfl
  rw [byteAt, getD_eq_getElem?_getD, hget]
  rfl

/-- The walk ends at a header of the packet. -/
theorem HeaderAt.of_skipIpv6Exts {ipOffset : ℕ} {protocol extLen : ℕ}
    (hwalk : skipIpv6Exts (byteAt frame (ipOffset + 6)) 0 (frame.drop (ipOffset + 40)) =
      some (protocol, extLen)) (hl4 : protocol = ipprotoTcp ∨ protocol = ipprotoUdp)
    {kind offset : ℕ} (h : HeaderAt frame ipOffset kind offset) :
    ∃ skipped, offset = ipOffset + 40 + skipped ∧
      skipIpv6Exts kind skipped (frame.drop offset) = some (protocol, extLen) := by
  induction h with
  | first => exact ⟨0, rfl, hwalk⟩
  | @next kind offset _ htcp hudp hfrag ih =>
    obtain ⟨skipped, rfl, hrest⟩ := ih
    unfold skipIpv6Exts at hrest
    split_ifs at hrest with hext
    · split at hrest
      · next next len tail heq =>
        simp only at hrest
        split_ifs at hrest with hcut
        have hnext := byteAt_of_drop heq
        have hlen : byteAt frame (ipOffset + 40 + skipped + 1) = len.toNat := by
          apply byteAt_of_drop (t := tail)
          rw [← drop_drop, heq]
          rfl
        rw [hnext, hlen]
        refine ⟨skipped + (len.toNat + 1) * 8, Nat.add_assoc _ _ _, ?_⟩
        rw [← drop_drop, heq]
        exact hrest
      · cases hrest
    · obtain ⟨rfl, -⟩ := Prod.mk.inj (some.inj hrest)
      rcases hl4 with rfl | rfl
      · exact absurd rfl htcp
      · exact absurd rfl hudp

/-- A fragment is not accepted. -/
theorem Parsed.not_fragmented {r : PacketParseResult} (h : Parsed frame r) :
    ¬ Fragmented frame r := by
  rw [Fragmented]
  rcases h.ip with ⟨h4, -, hip⟩ | ⟨h4, -, hip⟩
  · rw [if_pos h4, not_not]
    exact hip.unfragmented
  · rw [h4, if_neg Bool.false_ne_true]
    rintro ⟨offset, hheader⟩
    obtain ⟨protocol, hwalk, htcp, hudp⟩ := hip.exts
    have hl4 : protocol = ipprotoTcp ∨ protocol = ipprotoUdp := by
      rcases h.l4.kind with ⟨hkind, -⟩ | ⟨-, hkind, -⟩
      · exact .inl (of_decide_eq_true (htcp.symm.trans hkind))
      · exact .inr (of_decide_eq_true (hudp.symm.trans hkind))
    obtain ⟨skipped, -, hrest⟩ := hheader.of_skipIpv6Exts hwalk hl4
    unfold skipIpv6Exts at hrest
    rw [if_neg (by decide)] at hrest
    obtain ⟨rfl, -⟩ := Prod.mk.inj (some.inj hrest)
    rcases hl4 with hl4 | hl4
    all_goals exact absurd hl4 (by decide)

/-- **`parse_packet` is safe** for every captured length up to 65535: no read at or behind it, no
wrap of a 16-bit variable; the headers of a frame it accepts follow each other within it. -/
theorem parse_packet_safe (pktData : List UInt8) (caplen : ℕ) (hcaplen : caplen ≤ 65535)
    (hlen : caplen ≤ pktData.length) :
    ∃ result, parsePacketChecked pktData caplen = .ok result ∧ ∀ r ∈ result,
      14 ≤ r.ipOffset ∧
      r.ipOffset + r.ipHdrLen + r.ipv6ExtLen = r.l4Offset ∧
      r.l4Offset + r.l4HdrLen = r.payloadOffset ∧
      r.payloadOffset ≤ caplen ∧
      r.payloadOffset + r.payloadLen ≤ caplen ∧
      (r.isIpv4 = !r.isIpv6) ∧
      (r.isTcp = !r.isUdp) ∧
      ¬ Fragmented (pktData.take caplen) r := by
  refine ⟨_, parsePacketChecked_eq hlen hcaplen, ?_⟩
  intro r hr
  have hparsed := (parsePacket_eq_some_iff _ _).mp hr
  have hshape := hparsed.shape
  have hcaptured := hshape.captured
  rw [length_take_of_le hlen] at hcaptured
  refine ⟨hshape.ipOffset, hshape.l4Offset.symm, hshape.payloadOffset.symm, by omega, hcaptured,
    ?_, ?_, hparsed.not_fragmented⟩
  · rw [hshape.version, Bool.not_not]
  · rw [hshape.protocol, Bool.not_not]

/-- The UDP frame, captured without its last three bytes: the headers end where the capture ends. -/
theorem parse_packet_safe_cut_udp :
    ∃ result, parsePacketChecked udpFrame 42 = .ok result ∧
      ∃ r, result = some r ∧ r.payloadOffset = 42 ∧ r.payloadLen = 0 ∧
        ¬ Fragmented (udpFrame.take 42) r := by
  obtain ⟨result, hrun, hsafe⟩ := parse_packet_safe udpFrame 42 (by decide) (by decide)
  have hresult : result =
      some ⟨true, false, false, true, false, 0, 14, 34, 42, 20, 0, 8, 0⟩ := by
    have hplain := hrun.symm.trans (parsePacketChecked_eq (by decide) (by decide))
    rw [Except.ok.inj hplain]
    decide +kernel
  subst hresult
  refine ⟨_, hrun, _, rfl, rfl, rfl, ?_⟩
  exact (hsafe _ rfl).2.2.2.2.2.2.2

end CloudProbe.Worker
