import CloudProbe.Lib.Checked
import CloudProbe.Worker.IpLayers

/-!
# The extraction of endpoints stays within the captured bytes

The five functions of the extraction call each other in a circle and write over the same
out-parameters. They are run here under the checker of `Lib.Checked`; their offsets are `size_t` and
have room. The induction is on the captured bytes behind the Ethernet header.

Sources without a file are in `req_pattern.c`.
-/

namespace CloudProbe.Worker

open Lib List

/-! ## The checked run -/

section Checked

variable (pktData : List UInt8) (caplen : ℕ)

/-- Source: `extract_ipport_from_ether_layer` -/
def skipTagStackChecked (ethType nextDataOffset : ℕ) : Checked (Option (ℕ × ℕ)) := do
  if isVlanEthertype ethType then
    if caplen < nextDataOffset + 4 then return none
    let ethType ← loadBe pktData caplen (nextDataOffset + 2) 2
    skipTagStackChecked ethType (nextDataOffset + 4)
  else return some (ethType, nextDataOffset)
termination_by caplen - nextDataOffset

theorem skipTagStackChecked_eq {pktData : List UInt8} {caplen : ℕ} (hlen : caplen ≤ pktData.length)
    (ethType offset : ℕ) :
    skipTagStackChecked pktData caplen ethType offset =
      .ok (skipTagStack (pktData.take caplen) ethType offset) := by
  have hlength : (pktData.take caplen).length = caplen := length_take_of_le hlen
  fun_induction skipTagStack (pktData.take caplen) ethType offset with
  | case1 ethType offset hvlan hcut =>
    rw [skipTagStackChecked, if_pos hvlan, if_pos (by omega)]
    rfl
  | case2 ethType offset hvlan hcaptured ih =>
    rw [skipTagStackChecked, if_pos hvlan, if_neg (by omega), loadBe_eq hlen (by omega),
      Checked.ok_bind]
    exact ih
  | case3 ethType offset hvlan =>
    rw [skipTagStackChecked, if_neg hvlan]
    rfl

theorem le_of_skipTagStackChecked {ethType offset ethType' offset' : ℕ}
    (h : skipTagStackChecked pktData caplen ethType offset = .ok (some (ethType', offset'))) :
    offset ≤ offset' := by
  fun_induction skipTagStackChecked pktData caplen ethType offset with
  | case1 => cases h
  | case2 ethType offset hvlan hcaptured ih =>
    obtain ⟨tagType, -, hrest⟩ := Checked.bind_eq_ok h
    have hle := ih tagType hrest
    omega
  | case3 ethType offset hvlan =>
    obtain ⟨rfl, rfl⟩ := Prod.mk.inj (Option.some.inj (Except.ok.inj h))
    exact Nat.le_refl _

/-- Source: `extract_ipport_from_tcp_layer` -/
def extractIpportFromTcpLayerChecked (dataOffset : ℕ) (out : Endpoints) :
    Checked (ℕ × Endpoints) := do
  if caplen < dataOffset + 20 then return (0, out)
  let sport ← loadBe pktData caplen dataOffset 2
  let dport ← loadBe pktData caplen (dataOffset + 2) 2
  return (ipportFlagsPort, { out with sport := UInt16.ofNat sport, dport := UInt16.ofNat dport })

mutual

/-- Source: `extract_ipport_from_ether_layer` -/
def extractIpportFromEtherLayerChecked (dataOffset : ℕ) (out : Endpoints) :
    Checked (ℕ × Endpoints) := do
  if caplen < dataOffset + etherHeaderLen then return (0, out)
  let ethType ← loadBe pktData caplen (dataOffset + 12) 2
  match _htags : skipTagStackChecked pktData caplen ethType (dataOffset + etherHeaderLen) with
  | .error fault => .error fault
  | .ok none => return (0, out)
  | .ok (some (ethType, nextDataOffset)) =>
    if ethType = 0x0800 then extractIpportFromIpv4LayerChecked nextDataOffset out
    else if ethType = 0x86dd then extractIpportFromIpv6LayerChecked nextDataOffset out
    else return (0, out)
termination_by 2 * (caplen - dataOffset)
decreasing_by
  all_goals
    have hle := le_of_skipTagStackChecked _ _ _htags
    rw [etherHeaderLen] at *
    omega

/-- Source: `extract_ipport_from_ipv4_layer` -/
def extractIpportFromIpv4LayerChecked (dataOffset : ℕ) (out : Endpoints) :
    Checked (ℕ × Endpoints) := do
  if caplen < dataOffset + 20 then return (0, out)
  let vihl ← load pktData caplen dataOffset
  let saddr ← loadBe pktData caplen (dataOffset + 12) 4
  let daddr ← loadBe pktData caplen (dataOffset + 16) 4
  let out : Endpoints := {
    sip := some (.v4 (BitVec.ofNat 32 saddr))
    sport := 0
    dip := some (.v4 (BitVec.ofNat 32 daddr))
    dport := 0 }
  let protocol ← load pktData caplen (dataOffset + 9)
  if protocol.toNat = ipprotoTcp then
    let found ← extractIpportFromTcpLayerChecked pktData caplen
      (dataOffset + vihl.toNat % 16 * 4) out
    return (ipportFlagsIp ||| found.1, found.2)
  else if protocol.toNat = ipprotoUdp then
    let found ← extractIpportFromUdpLayerChecked (dataOffset + vihl.toNat % 16 * 4) out
    return (ipportFlagsIp ||| found.1, found.2)
  else return (ipportFlagsIp, out)
termination_by 2 * (caplen - dataOffset) + 1

/-- Source: `extract_ipport_from_ipv6_layer` -/
def extractIpportFromIpv6LayerChecked (dataOffset : ℕ) (out : Endpoints) :
    Checked (ℕ × Endpoints) := do
  if caplen < dataOffset + 40 then return (0, out)
  let saddr ← loadBe pktData caplen (dataOffset + 8) 16
  let daddr ← loadBe pktData caplen (dataOffset + 24) 16
  let out : Endpoints := {
    sip := some (.v6 (BitVec.ofNat 128 saddr))
    sport := 0
    dip := some (.v6 (BitVec.ofNat 128 daddr))
    dport := 0 }
  let nexthdr ← load pktData caplen (dataOffset + 6)
  if nexthdr.toNat = ipprotoTcp then
    let found ← extractIpportFromTcpLayerChecked pktData caplen (dataOffset + 40) out
    return (ipportFlagsIp ||| found.1, found.2)
  else if nexthdr.toNat = ipprotoUdp then
    let found ← extractIpportFromUdpLayerChecked (dataOffset + 40) out
    return (ipportFlagsIp ||| found.1, found.2)
  else return (ipportFlagsIp, out)
termination_by 2 * (caplen - dataOffset) + 1

/-- Source: `extract_ipport_from_udp_layer` -/
def extractIpportFromUdpLayerChecked (dataOffset : ℕ) (out : Endpoints) :
    Checked (ℕ × Endpoints) := do
  if caplen < dataOffset + 8 then return (0, out)
  let sport ← loadBe pktData caplen dataOffset 2
  let dport ← loadBe pktData caplen (dataOffset + 2) 2
  let out := { out with sport := UInt16.ofNat sport, dport := UInt16.ofNat dport }
  if 4700 ≤ out.dport ∧ out.dport < 4800 then
    let found ← extractIpportFromMaybeVxlanLayerChecked (dataOffset + 8) out
    return (ipportFlagsPort ||| found.1, found.2)
  else return (ipportFlagsPort, out)
termination_by 2 * (caplen - dataOffset)

/-- Source: `extract_ipport_from_maybe_vxlan_layer` -/
def extractIpportFromMaybeVxlanLayerChecked (dataOffset : ℕ) (out : Endpoints) :
    Checked (ℕ × Endpoints) :=
  if caplen < dataOffset + 8 + etherHeaderLen + 20 then return (0, out)
  else extractIpportFromEtherLayerChecked (dataOffset + 8) out
termination_by 2 * (caplen - dataOffset)

end

end Checked

/-! ## No fault -/

section NoFault

variable {pktData : List UInt8} {caplen : ℕ}

variable (hlen : caplen ≤ pktData.length)

include hlen

theorem extractIpportFromTcpLayerChecked_eq (offset : ℕ) (out : Endpoints) :
    extractIpportFromTcpLayerChecked pktData caplen offset out =
      .ok (extractIpportFromTcpLayer (pktData.take caplen) offset out) := by
  rw [extractIpportFromTcpLayerChecked, extractIpportFromTcpLayer, length_take_of_le hlen]
  refine Checked.early rfl fun hcut => ?_
  rw [loadBe_eq hlen (by omega), Checked.ok_bind, loadBe_eq hlen (by omega)]
  rfl

/-- The same for UDP, given it for the frame inside. -/
theorem extractIpportFromUdpLayerChecked_eq (offset : ℕ)
    (hinside : ∀ out, extractIpportFromEtherLayerChecked pktData caplen (offset + 8 + 8) out =
      .ok (extractIpportFromEtherLayer (pktData.take caplen) (offset + 8 + 8) out))
    (out : Endpoints) :
    extractIpportFromUdpLayerChecked pktData caplen offset out =
      .ok (extractIpportFromUdpLayer (pktData.take caplen) offset out) := by
  have hlength : (pktData.take caplen).length = caplen := length_take_of_le hlen
  have hvxlan : ∀ out, extractIpportFromMaybeVxlanLayerChecked pktData caplen (offset + 8) out =
      .ok (extractIpportFromMaybeVxlanLayer (pktData.take caplen) (offset + 8) out) := by
    intro out
    rw [extractIpportFromMaybeVxlanLayerChecked, extractIpportFromMaybeVxlanLayer, hlength]
    exact Checked.early rfl fun _ => hinside out
  rw [extractIpportFromUdpLayerChecked, extractIpportFromUdpLayer, hlength]
  refine Checked.early rfl fun hcut => ?_
  rw [loadBe_eq hlen (by omega), Checked.ok_bind, loadBe_eq hlen (by omega), Checked.ok_bind]
  dsimp only [portAt, u16At]
  split_ifs with hrange
  · rw [hvxlan]
    rfl
  · rfl

/-- The same for IPv4. -/
theorem extractIpportFromIpv4LayerChecked_eq (offset : ℕ)
    (hinside : ∀ inside, offset < inside → ∀ out,
      extractIpportFromEtherLayerChecked pktData caplen inside out =
        .ok (extractIpportFromEtherLayer (pktData.take caplen) inside out))
    (out : Endpoints) :
    extractIpportFromIpv4LayerChecked pktData caplen offset out =
      .ok (extractIpportFromIpv4Layer (pktData.take caplen) offset out) := by
  rw [extractIpportFromIpv4LayerChecked, extractIpportFromIpv4Layer, length_take_of_le hlen]
  refine Checked.early rfl fun hcut => ?_
  rw [load_eq hlen (by omega), Checked.ok_bind, loadBe_eq hlen (by omega), Checked.ok_bind,
    loadBe_eq hlen (by omega), Checked.ok_bind, load_eq hlen (by omega), Checked.ok_bind]
  dsimp only [byteAt]
  split_ifs with htcp hudp
  · rw [extractIpportFromTcpLayerChecked_eq hlen]
    rfl
  · rw [extractIpportFromUdpLayerChecked_eq hlen _ (hinside _ (by omega))]
    rfl
  · rfl

/-- The same for IPv6. -/
theorem extractIpportFromIpv6LayerChecked_eq (offset : ℕ)
    (hinside : ∀ inside, offset < inside → ∀ out,
      extractIpportFromEtherLayerChecked pktData caplen inside out =
        .ok (extractIpportFromEtherLayer (pktData.take caplen) inside out))
    (out : Endpoints) :
    extractIpportFromIpv6LayerChecked pktData caplen offset out =
      .ok (extractIpportFromIpv6Layer (pktData.take caplen) offset out) := by
  rw [extractIpportFromIpv6LayerChecked, extractIpportFromIpv6Layer, length_take_of_le hlen]
  refine Checked.early rfl fun hcut => ?_
  rw [loadBe_eq hlen (by omega), Checked.ok_bind, loadBe_eq hlen (by omega), Checked.ok_bind,
    load_eq hlen (by omega), Checked.ok_bind]
  dsimp only [byteAt]
  split_ifs with htcp hudp
  · rw [extractIpportFromTcpLayerChecked_eq hlen]
    rfl
  · rw [extractIpportFromUdpLayerChecked_eq hlen _ (hinside _ (by omega))]
    rfl
  · rfl

/-- The extraction makes no read outside of the captured bytes. -/
theorem extractIpportFromEtherLayerChecked_eq (offset : ℕ) (out : Endpoints) :
    extractIpportFromEtherLayerChecked pktData caplen offset out =
      .ok (extractIpportFromEtherLayer (pktData.take caplen) offset out) := by
  have hlength : (pktData.take caplen).length = caplen := length_take_of_le hlen
  -- on the captured bytes behind `offset`: a frame inside begins behind the one around it
  induction hleft : caplen - offset using Nat.strong_induction_on generalizing offset out with
  | _ left ih =>
    rw [extractIpportFromEtherLayerChecked]
    by_cases hcut : caplen < offset + etherHeaderLen
    · rw [if_pos hcut, extractIpportFromEtherLayer, hlength, if_pos hcut]
      rfl
    · have hether : ¬ (pktData.take caplen).length < offset + etherHeaderLen := by
        rw [hlength]
        exact hcut
      have htags := skipTagStackChecked_eq hlen (u16At (pktData.take caplen) (offset + 12))
        (offset + etherHeaderLen)
      have hroom : offset + 14 ≤ caplen := Nat.le_of_not_lt hcut
      rw [if_neg hcut, loadBe_eq hlen (by omega), Checked.ok_bind]
      split
      · next fault herror =>
        cases htags.symm.trans herror
      · next hnone =>
        rw [extractIpportFromEtherLayer_of_cut (Except.ok.inj (htags.symm.trans hnone))]
        rfl
      · next ethType ipOffset hsome =>
        have hle := le_of_skipTagStackChecked _ _ hsome
        rw [etherHeaderLen] at hle
        have hinside : ∀ inside, ipOffset < inside → ∀ out,
            extractIpportFromEtherLayerChecked pktData caplen inside out =
              .ok (extractIpportFromEtherLayer (pktData.take caplen) inside out) :=
          fun inside hlt out => ih (caplen - inside) (by omega) inside out rfl
        rw [extractIpportFromEtherLayer_of_tags hether
          (Except.ok.inj (htags.symm.trans hsome))]
        split_ifs
        · exact extractIpportFromIpv4LayerChecked_eq hlen _ hinside out
        · exact extractIpportFromIpv6LayerChecked_eq hlen _ hinside out
        · rfl

end NoFault

/-- **The extraction is safe and never mixes layers.** It ends without a read at or behind the
captured length, and leaves the addresses and ports of the innermost IP layer or changes nothing. -/
theorem extraction_safe (pktData : List UInt8) (caplen : ℕ) (hlen : caplen ≤ pktData.length)
    (out : Endpoints) :
    let frame := pktData.take caplen
    ∃ flags found,
      extractIpportFromEtherLayerChecked pktData caplen 0 out = .ok (flags, found) ∧
      (flags &&& ipportFlagsIp ≠ 0 → ∃ l ∈ ipLayers frame 0, found = l.endpoints frame ∧
        (ipLayers frame 0).getLast? = some l) ∧
      (flags &&& ipportFlagsIp = 0 → ipLayers frame 0 = [] ∧ found = out) ∧
      ∀ offset out', ipLayerAt frame offset = none →
        extractIpportFromEtherLayerChecked pktData caplen offset out' = .ok (0, out') := by
  intro frame
  obtain ⟨hip, hfound⟩ := extractIpportFromEtherLayer_eq_layers frame 0 out
  refine ⟨_, _, extractIpportFromEtherLayerChecked_eq hlen 0 out, ?_, ?_, ?_⟩
  · intro hflags
    have hlast := List.getLast?_eq_some_getLast (hip.mp hflags)
    refine ⟨_, getLast_mem (hip.mp hflags), ?_, hlast⟩
    rw [hfound, hlast]
    rfl
  · intro hflags
    have hnil : ipLayers frame 0 = [] := not_not.mp fun hne => absurd hflags (hip.mpr hne)
    rw [hfound, hnil]
    exact ⟨rfl, rfl⟩
  · intro offset out' hnone
    rw [extractIpportFromEtherLayerChecked_eq hlen, extractIpportFromEtherLayer_of_none hnone]

/-- A datagram from 10.0.0.1 port 4096 to 10.0.0.2 port 4789 with a frame inside: an ICMP packet
from 192.168.0.1 to 192.168.0.2. -/
def vxlanFrame : List UInt8 :=
  List.replicate 12 0 ++ [0x08, 0x00] ++
    [0x45, 0, 0, 70, 0, 0, 0, 0, 64, 17, 0, 0, 10, 0, 0, 1, 10, 0, 0, 2] ++
    [0x10, 0, 0x12, 0xb5, 0, 50, 0, 0] ++ [8, 0, 0, 0, 0, 0, 1, 0] ++
    (List.replicate 12 0 ++ [0x08, 0x00] ++
      [0x45, 0, 0, 20, 0, 0, 0, 0, 64, 1, 0, 0, 192, 168, 0, 1, 192, 168, 0, 2])

/-- The addresses are those of the inner packet, with ports 0 and not with those of the datagram. -/
theorem extraction_safe_vxlan :
    ∃ flags, extractIpportFromEtherLayerChecked vxlanFrame 84 0 ⟨none, 0, none, 0⟩ =
      .ok (flags, ⟨some (.v4 0xc0a80001#32), 0, some (.v4 0xc0a80002#32), 0⟩) := by
  obtain ⟨flags, found, hrun, hip, hnone, -⟩ :=
    extraction_safe vxlanFrame 84 (by decide) ⟨none, 0, none, 0⟩
  have hlayers : ipLayers (vxlanFrame.take 84) 0 = [⟨true, 14⟩, ⟨true, 64⟩] := by decide +kernel
  have hflags : flags &&& ipportFlagsIp ≠ 0 := by
    intro hzero
    rw [hlayers] at hnone
    cases (hnone hzero).1
  obtain ⟨l, -, hfound, hlast⟩ := hip hflags
  rw [hlayers] at hlast
  obtain rfl := Option.some.inj hlast
  have hendpoints : (⟨true, 64⟩ : IpLayer).endpoints (vxlanFrame.take 84) =
      ⟨some (.v4 0xc0a80001#32), 0, some (.v4 0xc0a80002#32), 0⟩ := by decide +kernel
  refine ⟨flags, ?_⟩
  rw [hrun, hfound]
  exact congrArg (fun e => Except.ok (flags, e)) hendpoints

end CloudProbe.Worker
