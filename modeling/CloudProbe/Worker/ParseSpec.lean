import CloudProbe.Worker.PacketSplit

/-!
# What `parse_packet` accepts

`Parsed` says that the frame has the headers the result describes, and `parsePacket_eq_some_iff`
that these are exactly the results. The two walks read the tags and the extension headers they skip
and nothing behind them.
-/

namespace CloudProbe.Worker

open Lib List Option

/-! ## Fields -/

section Fields

variable {f g : List UInt8} {i : ℕ}

theorem byteAt_congr (h : g[i]? = f[i]?) : byteAt g i = byteAt f i := by
  rw [byteAt, byteAt, getD_eq_getElem?_getD, getD_eq_getElem?_getD, h]

theorem u16At_congr (h : ∀ j, i ≤ j → j < i + 2 → g[j]? = f[j]?) : u16At g i = u16At f i := by
  rw [u16At, u16At, slice_congr h]

theorem u32At_congr (h : ∀ j, i ≤ j → j < i + 4 → g[j]? = f[j]?) : u32At g i = u32At f i := by
  rw [u32At, u32At, slice_congr h]

theorem u16At_lt (f : List UInt8) (i : ℕ) : u16At f i < 2 ^ 16 := by
  rw [u16At]
  exact ofBe_lt (length_take_le 2 _)

end Fields

/-! ## The specification -/

attribute [ext] PacketParseResult

structure L4Header (frame : List UInt8) (isTcp isUdp : Bool) (offset len : ℕ) : Prop where
  kind : (isTcp = true ∧ isUdp = false ∧ len = byteAt frame (offset + 12) / 16 * 4 ∧ 20 ≤ len) ∨
    (isTcp = false ∧ isUdp = true ∧ len = 8)
  captured : offset + len ≤ frame.length

structure Ipv4Header (frame : List UInt8) (r : PacketParseResult) : Prop where
  ipHdrLen : r.ipHdrLen = byteAt frame r.ipOffset % 16 * 4
  ihl : 20 ≤ r.ipHdrLen
  unfragmented : u16At frame (r.ipOffset + 6) % 0x4000 = 0
  isTcp : r.isTcp = decide (byteAt frame (r.ipOffset + 9) = ipprotoTcp)
  isUdp : r.isUdp = decide (byteAt frame (r.ipOffset + 9) = ipprotoUdp)
  ipv6ExtLen : r.ipv6ExtLen = 0
  l4Offset : r.l4Offset = r.ipOffset + r.ipHdrLen
  total : r.ipHdrLen + r.l4HdrLen ≤ u16At frame (r.ipOffset + 2)

structure Ipv6Header (frame : List UInt8) (r : PacketParseResult) : Prop where
  ipHdrLen : r.ipHdrLen = 40
  exts : ∃ protocol, skipIpv6Exts (byteAt frame (r.ipOffset + 6)) 0
      (frame.drop (r.ipOffset + 40)) = some (protocol, r.ipv6ExtLen) ∧
    r.isTcp = decide (protocol = ipprotoTcp) ∧ r.isUdp = decide (protocol = ipprotoUdp)
  l4Offset : r.l4Offset = r.ipOffset + 40 + r.ipv6ExtLen
  total : r.ipv6ExtLen + r.l4HdrLen ≤ u16At frame (r.ipOffset + 4)

/-- The payload length the IP header declares. -/
def PacketParseResult.declaredLen (r : PacketParseResult) (frame : List UInt8) : ℕ :=
  if r.isIpv4 then u16At frame (r.ipOffset + 2) - (r.ipHdrLen + r.l4HdrLen)
  else u16At frame (r.ipOffset + 4) - r.ipv6ExtLen - r.l4HdrLen

structure Headers (frame : List UInt8) (r : PacketParseResult) : Prop where
  vlanOffset : r.vlanOffset = if r.hasVlan then etherHeaderLen else 0
  ip : (r.isIpv4 = true ∧ r.isIpv6 = false ∧ Ipv4Header frame r) ∨
    (r.isIpv4 = false ∧ r.isIpv6 = true ∧ Ipv6Header frame r)
  l4 : L4Header frame r.isTcp r.isUdp r.l4Offset r.l4HdrLen
  payloadOffset : r.payloadOffset = r.l4Offset + r.l4HdrLen

/-- The frame has the headers of the result, behind its VLAN tags. -/
structure Parsed (frame : List UInt8) (r : PacketParseResult) : Prop extends Headers frame r where
  ether : etherHeaderLen ≤ frame.length
  hasVlan : r.hasVlan = isVlanEthertype (u16At frame 12)
  tags : skipVlanTags (u16At frame 12) etherHeaderLen (frame.drop etherHeaderLen) =
    some (if r.isIpv4 then 0x0800 else 0x86dd, r.ipOffset)
  payloadLen : r.payloadLen = min (r.declaredLen frame) (frame.length - r.payloadOffset)

variable (frame : List UInt8)

/-- What is accepted as an L4 header. -/
theorem parseL4_eq_some_iff (protocol offset len : ℕ) :
    parseL4 frame protocol offset = some len ↔
      L4Header frame (protocol = ipprotoTcp) (protocol = ipprotoUdp) offset len := by
  have hwf : ∀ {a b : Bool}, L4Header frame a b offset len ↔
      ((a = true ∧ b = false ∧ len = byteAt frame (offset + 12) / 16 * 4 ∧ 20 ≤ len) ∨
        (a = false ∧ b = true ∧ len = 8)) ∧ offset + len ≤ frame.length :=
    ⟨fun h => ⟨h.kind, h.captured⟩, fun h => ⟨h.1, h.2⟩⟩
  rw [hwf, parseL4]
  by_cases htcp : protocol = ipprotoTcp
  · have hudp : protocol ≠ ipprotoUdp := by rw [htcp]; decide
    simp only [htcp, if_true, decide_true, true_and, Bool.true_eq_false, false_and, or_false,
      ite_none_left_eq_some, some.injEq,
      show decide (ipprotoTcp = ipprotoUdp) = false from rfl]
    omega
  · by_cases hudp : protocol = ipprotoUdp
    · simp only [hudp, if_true, if_neg (show ipprotoUdp ≠ ipprotoTcp by decide), decide_true,
        show decide (ipprotoUdp = ipprotoTcp) = false from rfl, Bool.false_eq_true, false_and,
        false_or, true_and, ite_none_left_eq_some, some.injEq]
      omega
    · simp [htcp, hudp]

/-- What the IPv4 branch accepts. -/
theorem parseIpv4_eq_some_iff (hasVlan : Bool) (offset : ℕ) (r : PacketParseResult) :
    parseIpv4 frame hasVlan offset = some r ↔
      Headers frame r ∧ r.isIpv4 = true ∧ r.hasVlan = hasVlan ∧ r.ipOffset = offset ∧
        r.payloadLen = r.declaredLen frame := by
  simp only [parseIpv4, bind, bind_none, ite_none_left_eq_some,
    bind_eq_some_iff, parseL4_eq_some_iff]
  constructor
  · rintro ⟨-, hihl, -, hfrag, len, hl4, htotal, hr⟩
    obtain rfl := some.inj hr
    refine ⟨⟨rfl, .inl ⟨rfl, rfl, ?_⟩, hl4, rfl⟩, rfl, rfl, rfl, rfl⟩
    exact ⟨rfl, by simp only; omega, not_not.mp hfrag, rfl, rfl, rfl, rfl, by simpa using htotal⟩
  · rintro ⟨⟨hvlanOffset, hip, hl4, hpayload⟩, h4, rfl, rfl, hlen⟩
    rcases hip with ⟨-, h6, hip⟩ | ⟨h4', -⟩
    · have hcaptured := hl4.captured
      have hl4len : 8 ≤ r.l4HdrLen := by
        rcases hl4.kind with ⟨-, -, -, h⟩ | ⟨-, -, h⟩ <;> omega
      obtain ⟨hhdr, hihl, hfrag, htcp, hudp, hext, hoffset, htotal⟩ := hip
      rw [PacketParseResult.declaredLen, if_pos h4] at hlen
      rw [htcp, hudp, hoffset, hhdr] at hl4
      refine ⟨by omega, by omega, by omega, not_not.mpr hfrag, r.l4HdrLen, hl4, by omega, ?_⟩
      exact congrArg some (PacketParseResult.ext h4.symm h6.symm htcp.symm hudp.symm rfl
        hvlanOffset.symm rfl (by rw [hoffset, hhdr]) (by rw [hpayload, hoffset, hhdr]) hhdr.symm
        hext.symm rfl (by rw [hlen, hhdr]))
    · rw [h4] at h4'
      cases h4'

/-- What the IPv6 branch accepts. -/
theorem parseIpv6_eq_some_iff (hasVlan : Bool) (offset : ℕ) (r : PacketParseResult) :
    parseIpv6 frame hasVlan offset = some r ↔
      Headers frame r ∧ r.isIpv4 = false ∧ r.hasVlan = hasVlan ∧ r.ipOffset = offset ∧
        r.payloadLen = r.declaredLen frame := by
  simp only [parseIpv6, bind, bind_none, ite_none_left_eq_some,
    bind_eq_some_iff, parseL4_eq_some_iff]
  constructor
  · rintro ⟨-, ⟨protocol, extLen⟩, hexts, len, hl4, htotal, hr⟩
    obtain rfl := some.inj hr
    refine ⟨⟨rfl, .inr ⟨rfl, rfl, ?_⟩, hl4, rfl⟩, rfl, rfl, rfl, rfl⟩
    exact ⟨rfl, ⟨protocol, hexts, rfl, rfl⟩, rfl, Nat.le_of_not_lt htotal⟩
  · rintro ⟨⟨hvlanOffset, hip, hl4, hpayload⟩, h4, rfl, rfl, hlen⟩
    rcases hip with ⟨h4', -⟩ | ⟨-, h6, hip⟩
    · rw [h4] at h4'
      cases h4'
    · have hcaptured := hl4.captured
      obtain ⟨hhdr, ⟨protocol, hexts, htcp, hudp⟩, hoffset, htotal⟩ := hip
      rw [PacketParseResult.declaredLen, h4, if_neg Bool.false_ne_true] at hlen
      rw [htcp, hudp, hoffset] at hl4
      refine ⟨by omega, (protocol, r.ipv6ExtLen), hexts, r.l4HdrLen, hl4, by omega, ?_⟩
      exact congrArg some (PacketParseResult.ext h4.symm h6.symm htcp.symm hudp.symm rfl
        hvlanOffset.symm rfl hoffset.symm (by rw [hpayload, hoffset]) hhdr.symm rfl rfl hlen.symm)

theorem clampPayload_eq_some_iff (r r' : PacketParseResult) :
    clampPayload frame r = some r' ↔ r.payloadOffset ≤ frame.length ∧
      r' = { r with payloadLen := min r.payloadLen (frame.length - r.payloadOffset) } := by
  have hmin : (if frame.length - r.payloadOffset < r.payloadLen then
      frame.length - r.payloadOffset else r.payloadLen) =
      min r.payloadLen (frame.length - r.payloadOffset) := by
    split_ifs <;> omega
  rw [clampPayload]
  simp only [hmin, ite_none_left_eq_some, Nat.not_lt, some.injEq]
  rw [eq_comm (a := r')]

theorem Headers.withPayloadLen {frame : List UInt8} {r : PacketParseResult} (h : Headers frame r)
    (payloadLen : ℕ) : Headers frame { r with payloadLen } := by
  refine ⟨h.vlanOffset, ?_, h.l4, h.payloadOffset⟩
  rcases h.ip with ⟨h4, h6, hip⟩ | ⟨h4, h6, hip⟩
  · exact .inl ⟨h4, h6, { hip with }⟩
  · exact .inr ⟨h4, h6, { hip with }⟩

/-- `parse_packet` accepts exactly the frames of `Parsed`, with its result. -/
theorem parsePacket_eq_some_iff (r : PacketParseResult) :
    parsePacket frame = some r ↔ Parsed frame r := by
  simp only [parsePacket, bind, bind_none, ite_none_left_eq_some, bind_eq_some_iff]
  constructor
  · rintro ⟨hether, ⟨etherType, offset⟩, htags, h⟩
    have hclamped : ∀ r₀, Headers frame r₀ → r₀.hasVlan = isVlanEthertype (u16At frame 12) →
        r₀.ipOffset = offset → r₀.payloadLen = r₀.declaredLen frame →
        etherType = (if r₀.isIpv4 then 0x0800 else 0x86dd) → clampPayload frame r₀ = some r →
        Parsed frame r := by
      rintro r₀ hheaders hvlan rfl hlen rfl hclamp
      obtain ⟨-, rfl⟩ := (clampPayload_eq_some_iff _ _ _).mp hclamp
      exact { hheaders.withPayloadLen _ with
        ether := Nat.le_of_not_lt hether
        hasVlan := hvlan
        tags := htags
        payloadLen := congrArg (min · _) hlen }
    simp only at h
    split_ifs at h with h4 h6
    · obtain ⟨r₀, hip, hclamp⟩ := bind_eq_some_iff.mp h
      obtain ⟨hheaders, hv4, hvlan, hoffset, hlen⟩ := (parseIpv4_eq_some_iff _ _ _ _).mp hip
      exact hclamped r₀ hheaders hvlan hoffset hlen (by rw [hv4]; exact h4) hclamp
    · obtain ⟨r₀, hip, hclamp⟩ := bind_eq_some_iff.mp h
      obtain ⟨hheaders, hv4, hvlan, hoffset, hlen⟩ := (parseIpv6_eq_some_iff _ _ _ _).mp hip
      exact hclamped r₀ hheaders hvlan hoffset hlen (by rw [hv4]; exact h6) hclamp
  · intro h
    have hheaders := h.toHeaders.withPayloadLen (r.declaredLen frame)
    have hclamp : clampPayload frame { r with payloadLen := r.declaredLen frame } = some r := by
      refine (clampPayload_eq_some_iff _ _ _).mpr ⟨?_, ?_⟩
      · have hcaptured := h.l4.captured
        have hpayload := h.payloadOffset
        simp only
        omega
      · rw [← h.payloadLen]
    refine ⟨Nat.not_lt.mpr h.ether, _, h.tags, ?_⟩
    rcases h.ip with ⟨h4, -⟩ | ⟨h4, -⟩
    · have hip := (parseIpv4_eq_some_iff _ _ _ _).mpr ⟨hheaders, h4, h.hasVlan, rfl, rfl⟩
      simp only [h4, if_true]
      exact bind_eq_some_iff.mpr ⟨_, hip, hclamp⟩
    · have hip := (parseIpv6_eq_some_iff _ _ _ _).mpr ⟨hheaders, h4, h.hasVlan, rfl, rfl⟩
      simp only [h4, Bool.false_eq_true, if_false, show ¬ (0x86dd = 0x0800) by decide, if_true]
      exact bind_eq_some_iff.mpr ⟨_, hip, hclamp⟩

/-! ## Locality -/

/-- The walk over the tags does not look behind them. -/
theorem skipVlanTags_append {etherType offset etherType' offset' : ℕ} {rest : List UInt8}
    (h : skipVlanTags etherType offset rest = some (etherType', offset')) :
    ∃ tags tail, rest = tags ++ tail ∧ offset' = offset + tags.length ∧
      ∀ tail', skipVlanTags etherType offset (tags ++ tail') = some (etherType', offset') := by
  fun_induction skipVlanTags etherType offset rest with
  | case1 etherType offset hvlan a b t₁ t₂ rest ih =>
    obtain ⟨tags, tail, rfl, rfl, hwalk⟩ := ih h
    refine ⟨a :: b :: t₁ :: t₂ :: tags, tail, rfl, ?_, ?_⟩
    · simp only [length_cons]
      omega
    · intro tail'
      rw [cons_append, cons_append, cons_append, cons_append, skipVlanTags, if_pos hvlan]
      exact hwalk tail'
  | case2 => cases h
  | case3 rest etherType offset hvlan =>
    obtain ⟨rfl, rfl⟩ := Prod.mk.inj (some.inj h)
    refine ⟨[], rest, rfl, rfl, ?_⟩
    intro tail'
    unfold skipVlanTags
    rw [if_neg hvlan]

/-- The walk over the extension headers does not look behind them. -/
theorem skipIpv6Exts_append {nexthdr extLen nexthdr' extLen' : ℕ} {rest : List UInt8}
    (h : skipIpv6Exts nexthdr extLen rest = some (nexthdr', extLen')) :
    ∃ exts tail, rest = exts ++ tail ∧ extLen' = extLen + exts.length ∧
      ∀ tail', skipIpv6Exts nexthdr extLen (exts ++ tail') = some (nexthdr', extLen') := by
  fun_induction skipIpv6Exts nexthdr extLen rest with
  | case1 | case3 => cases h
  | case2 nexthdr extLen hext next len tail extTotal hlen ih =>
    obtain ⟨exts, rest, heq, rfl, hwalk⟩ := ih h
    have hge : 2 ≤ extTotal := by omega
    have hlength : ((next :: len :: tail).take extTotal).length = extTotal :=
      length_take_of_le (Nat.le_of_not_lt hlen)
    refine ⟨(next :: len :: tail).take extTotal ++ exts, rest, ?_, ?_, ?_⟩
    · rw [append_assoc, ← heq, take_append_drop]
    · rw [length_append, hlength, Nat.add_assoc]
    · intro tail'
      have hcons : (next :: len :: tail).take extTotal ++ exts ++ tail' =
          next :: len :: (tail.take (extTotal - 2) ++ exts ++ tail') := by
        obtain ⟨k, hk⟩ := Nat.exists_eq_add_of_le' hge
        simp [hk]
      have hdrop : ((next :: len :: tail).take extTotal ++ exts ++ tail').drop extTotal =
          exts ++ tail' := by
        rw [append_assoc, drop_left' hlength]
      rw [hcons, skipIpv6Exts, if_pos hext]
      simp only
      rw [if_neg, ← hcons]
      · rw [hdrop]
        exact hwalk tail'
      · rw [← hcons, length_append, length_append, hlength]
        omega
  | case4 nexthdr extLen rest hext =>
    obtain ⟨rfl, rfl⟩ := Prod.mk.inj (some.inj h)
    refine ⟨[], rest, rfl, rfl, ?_⟩
    intro tail'
    unfold skipIpv6Exts
    rw [if_neg hext]

/-! ## Shape -/

/-- How the offsets and lengths of a result lie in the frame. -/
structure Shape (frame : List UInt8) (r : PacketParseResult) : Prop where
  version : r.isIpv6 = !r.isIpv4
  protocol : r.isUdp = !r.isTcp
  ipOffset : etherHeaderLen ≤ r.ipOffset
  ipHdrLen : 20 ≤ r.ipHdrLen
  ipv6 : r.isIpv4 = false → r.ipHdrLen = 40
  ipv4 : r.isIpv4 = true → r.ipv6ExtLen = 0
  l4Offset : r.l4Offset = r.ipOffset + r.ipHdrLen + r.ipv6ExtLen
  l4HdrLen : 8 ≤ r.l4HdrLen
  tcp : r.isTcp = true → 20 ≤ r.l4HdrLen
  udp : r.isTcp = false → r.l4HdrLen = 8
  payloadOffset : r.payloadOffset = r.l4Offset + r.l4HdrLen
  captured : r.payloadOffset + r.payloadLen ≤ frame.length
  total4 : r.isIpv4 = true → r.ipHdrLen + r.l4HdrLen + r.payloadLen < 2 ^ 16
  total : r.ipv6ExtLen + r.l4HdrLen + r.payloadLen < 2 ^ 16

/-- The headers of an accepted frame follow each other. -/
theorem Parsed.shape {frame : List UInt8} {r : PacketParseResult} (h : Parsed frame r) :
    Shape frame r := by
  obtain ⟨tags, -, -, hip, -⟩ := skipVlanTags_append h.tags
  have hcaptured := h.l4.captured
  have hpayloadOffset := h.payloadOffset
  have hpayloadLen := h.payloadLen
  have hl4 : r.isUdp = (!r.isTcp) ∧ 8 ≤ r.l4HdrLen ∧ (r.isTcp = true → 20 ≤ r.l4HdrLen) ∧
      (r.isTcp = false → r.l4HdrLen = 8) := by
    rcases h.l4.kind with ⟨htcp, hudp, -, hlen⟩ | ⟨htcp, hudp, hlen⟩
    · simp only [htcp, hudp, Bool.not_true, true_and, Bool.true_eq_false, false_imp_iff, and_true]
      omega
    · simp only [htcp, hudp, Bool.not_false, true_and, Bool.false_eq_true, false_imp_iff]
      omega
  obtain ⟨hprotocol, hl4len, htcp, hudp⟩ := hl4
  rcases h.ip with ⟨h4, h6, hip4⟩ | ⟨h4, h6, hip6⟩
  · have hlt := u16At_lt frame (r.ipOffset + 2)
    have htotal := hip4.total
    have hext := hip4.ipv6ExtLen
    rw [PacketParseResult.declaredLen, if_pos h4] at hpayloadLen
    refine ⟨by rw [h4, h6]; rfl, hprotocol, by omega, hip4.ihl, by simp [h4], fun _ => hext,
      by rw [hip4.l4Offset, hext]; rfl, hl4len, htcp, hudp, hpayloadOffset, by omega,
      fun _ => by omega, by omega⟩
  · have hlt := u16At_lt frame (r.ipOffset + 4)
    have htotal := hip6.total
    have hhdr := hip6.ipHdrLen
    rw [PacketParseResult.declaredLen, h4, if_neg Bool.false_ne_true] at hpayloadLen
    refine ⟨by rw [h4, h6]; rfl, hprotocol, by omega, by omega, fun _ => hhdr, by simp [h4],
      by rw [hip6.l4Offset, hhdr], hl4len, htcp, hudp, hpayloadOffset, by omega, by simp [h4],
      by omega⟩

end CloudProbe.Worker
