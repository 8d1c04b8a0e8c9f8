import CloudProbe.Worker.Endpoints

/-!
# The IP layers of a frame

A frame may carry an IP packet, which may carry a frame of its own in a VXLAN datagram, and so on.

* **Layers** (`ipLayerAt`, `ipLayers`): complete IP headers behind an Ethernet header and VLAN tags,
  from the outermost to the innermost one. The endpoints of a layer are its own addresses, with the
  ports of its own TCP or UDP header when that was captured whole and 0 otherwise.
* **The extraction** (`extractIpportFromEtherLayer_eq_layers`): every layer writes over the same
  out-parameters, all four of them, so what is left is the endpoints of the innermost layer.
-/

namespace CloudProbe.Worker

open Lib Option

/-- A captured IP header, of the version and at the offset. -/
structure IpLayer where
  isIpv4 : Bool
  ipOffset : ℕ
deriving DecidableEq, Repr

namespace IpLayer

variable (l : IpLayer) (frame : List UInt8)

def ihl : ℕ := byteAt frame l.ipOffset % 16

def protocol : ℕ := byteAt frame (if l.isIpv4 then l.ipOffset + 9 else l.ipOffset + 6)

def l4Offset : ℕ := if l.isIpv4 then l.ipOffset + l.ihl frame * 4 else l.ipOffset + 40

def sip : IpAddr :=
  if l.isIpv4 then ipv4At frame (l.ipOffset + 12) else ipv6At frame (l.ipOffset + 8)

def dip : IpAddr :=
  if l.isIpv4 then ipv4At frame (l.ipOffset + 16) else ipv6At frame (l.ipOffset + 24)

def HasTcp : Prop := l.protocol frame = ipprotoTcp ∧ l.l4Offset frame + 20 ≤ frame.length

def HasUdp : Prop := l.protocol frame = ipprotoUdp ∧ l.l4Offset frame + 8 ≤ frame.length

instance : Decidable (l.HasTcp frame) := inferInstanceAs (Decidable (_ ∧ _))

instance : Decidable (l.HasUdp frame) := inferInstanceAs (Decidable (_ ∧ _))

/-- The source port, 0 without a TCP or UDP header. -/
def sport : UInt16 :=
  if l.HasTcp frame ∨ l.HasUdp frame then portAt frame (l.l4Offset frame) else 0

/-- The destination port, 0 without a TCP or UDP header. -/
def dport : UInt16 :=
  if l.HasTcp frame ∨ l.HasUdp frame then portAt frame (l.l4Offset frame + 2) else 0

def endpoints : Endpoints :=
  ⟨some (l.sip frame), l.sport frame, some (l.dip frame), l.dport frame⟩

def flags : ℕ :=
  if l.HasTcp frame ∨ l.HasUdp frame then ipportFlagsIp ||| ipportFlagsPort else ipportFlagsIp

/-- The frame inside: a UDP datagram to a port of the VXLAN range, long enough for a VXLAN header,
an Ethernet header and an IPv4 header. -/
def inner : Option ℕ :=
  if l.HasUdp frame ∧ 4700 ≤ l.dport frame ∧ l.dport frame < 4800 ∧
      l.l4Offset frame + 50 ≤ frame.length then
    some (l.l4Offset frame + 16)
  else none

end IpLayer

/-- The IP layer of the frame that begins at an offset: the tag stack and the IP header behind it
were captured. -/
def ipLayerAt (frame : List UInt8) (offset : ℕ) : Option IpLayer :=
  if frame.length < offset + etherHeaderLen then none
  else
    match skipTagStack frame (u16At frame (offset + 12)) (offset + etherHeaderLen) with
    | none => none
    | some (ethType, ipOffset) =>
      if ethType = 0x0800 ∧ ipOffset + 20 ≤ frame.length then some ⟨true, ipOffset⟩
      else if ethType = 0x86dd ∧ ipOffset + 40 ≤ frame.length then some ⟨false, ipOffset⟩
      else none

theorem ipLayerAt_bounds {frame : List UInt8} {offset : ℕ} {l : IpLayer}
    (h : ipLayerAt frame offset = some l) :
    offset + 14 ≤ l.ipOffset ∧ l.ipOffset + (if l.isIpv4 then 20 else 40) ≤ frame.length := by
  rw [ipLayerAt] at h
  split_ifs at h with hcut
  split at h
  · cases h
  · next ethType ipOffset htags =>
    have hle := le_of_skipTagStack htags
    rw [etherHeaderLen] at hle
    split_ifs at h with h4 h6
    · obtain rfl := some.inj h
      exact ⟨hle, h4.2⟩
    · obtain rfl := some.inj h
      exact ⟨hle, h6.2⟩

theorem IpLayer.lt_of_inner {frame : List UInt8} {offset inside : ℕ} {l : IpLayer}
    (h : ipLayerAt frame offset = some l) (hinner : l.inner frame = some inside) :
    offset < inside ∧ inside < frame.length := by
  have hbounds := ipLayerAt_bounds h
  rw [IpLayer.inner] at hinner
  split_ifs at hinner with hvxlan
  obtain rfl := some.inj hinner
  have hl4 : l.ipOffset ≤ l.l4Offset frame := by
    rw [IpLayer.l4Offset]
    split_ifs <;> omega
  omega

/-- The IP layers of the frame that begins at an offset, the outermost first. -/
def ipLayers (frame : List UInt8) (offset : ℕ) : List IpLayer :=
  match _hlayer : ipLayerAt frame offset with
  | none => []
  | some l =>
    match _hinner : l.inner frame with
    | none => [l]
    | some inside => l :: ipLayers frame inside
termination_by frame.length - offset
decreasing_by
  have hlt := IpLayer.lt_of_inner _hlayer _hinner
  omega

section Equations

variable {frame : List UInt8} {offset inside : ℕ} {l : IpLayer}

theorem ipLayers_of_none (h : ipLayerAt frame offset = none) : ipLayers frame offset = [] := by
  rw [ipLayers]
  split
  · rfl
  · next hsome =>
    rw [h] at hsome
    cases hsome

theorem ipLayers_of_some (h : ipLayerAt frame offset = some l) :
    ipLayers frame offset = l :: (l.inner frame).elim [] (ipLayers frame) := by
  rw [ipLayers]
  split
  · next hnone =>
    rw [h] at hnone
    cases hnone
  · next hsome =>
    obtain rfl := some.inj (h.symm.trans hsome)
    split
    · next hinner =>
      rw [hinner]
      rfl
    · next inside hinner =>
      rw [hinner]
      rfl

theorem ipLayers_of_inner_none (h : ipLayerAt frame offset = some l)
    (hinner : l.inner frame = none) : ipLayers frame offset = [l] := by
  rw [ipLayers_of_some h, hinner]
  rfl

theorem ipLayers_of_inner_some (h : ipLayerAt frame offset = some l)
    (hinner : l.inner frame = some inside) :
    ipLayers frame offset = l :: ipLayers frame inside := by
  rw [ipLayers_of_some h, hinner]
  rfl

end Equations

/-! ## The extraction -/

section Extraction

variable {frame : List UInt8} {offset : ℕ} {l : IpLayer}

theorem extractIpportFromEtherLayer_of_cut
    (htags : skipTagStack frame (u16At frame (offset + 12)) (offset + etherHeaderLen) = none)
    (out : Endpoints) : extractIpportFromEtherLayer frame offset out = (0, out) := by
  rw [extractIpportFromEtherLayer]
  split_ifs
  · rfl
  · split
    · rfl
    · next hsome =>
      rw [htags] at hsome
      cases hsome

theorem extractIpportFromEtherLayer_of_tags {ethType ipOffset : ℕ}
    (hether : ¬ frame.length < offset + etherHeaderLen)
    (htags : skipTagStack frame (u16At frame (offset + 12)) (offset + etherHeaderLen) =
      some (ethType, ipOffset)) (out : Endpoints) :
    extractIpportFromEtherLayer frame offset out =
      if ethType = 0x0800 then extractIpportFromIpv4Layer frame ipOffset out
      else if ethType = 0x86dd then extractIpportFromIpv6Layer frame ipOffset out
      else (0, out) := by
  rw [extractIpportFromEtherLayer, if_neg hether]
  split
  · next hnone =>
    rw [htags] at hnone
    cases hnone
  · next hsome =>
    obtain ⟨rfl, rfl⟩ := Prod.mk.inj (some.inj (htags.symm.trans hsome))
    rfl

theorem extractIpportFromEtherLayer_of_none (h : ipLayerAt frame offset = none) (out : Endpoints) :
    extractIpportFromEtherLayer frame offset out = (0, out) := by
  rw [ipLayerAt] at h
  by_cases hether : frame.length < offset + etherHeaderLen
  · rw [extractIpportFromEtherLayer, if_pos hether]
  · rw [if_neg hether] at h
    split at h
    · next htags => exact extractIpportFromEtherLayer_of_cut htags out
    · next ethType ipOffset htags =>
      rw [extractIpportFromEtherLayer_of_tags hether htags]
      split_ifs at h ⊢ with h4 h6
      · rw [extractIpportFromIpv4Layer, if_pos (by omega)]
      · rw [extractIpportFromIpv6Layer, if_pos (by omega)]
      · rfl

theorem extractIpportFromEtherLayer_of_some (h : ipLayerAt frame offset = some l)
    (out : Endpoints) :
    extractIpportFromEtherLayer frame offset out =
      extractL4 frame (l.protocol frame) (l.l4Offset frame)
        ⟨some (l.sip frame), 0, some (l.dip frame), 0⟩ := by
  rw [ipLayerAt] at h
  split_ifs at h with hether
  split at h
  · cases h
  · next ethType ipOffset htags =>
    rw [extractIpportFromEtherLayer_of_tags hether htags]
    split_ifs at h with h4 h6
    · obtain rfl := some.inj h
      rw [if_pos h4.1, extractIpportFromIpv4Layer_eq h4.2]
      rfl
    · obtain rfl := some.inj h
      have hne : ¬ ethType = 0x0800 := by omega
      rw [if_neg hne, if_pos h6.1, extractIpportFromIpv6Layer_eq h6.2]
      rfl

theorem IpLayer.extractL4_of_hasTcp (l : IpLayer) (h : l.HasTcp frame) :
    l.inner frame = none ∧
      extractL4 frame (l.protocol frame) (l.l4Offset frame)
        ⟨some (l.sip frame), 0, some (l.dip frame), 0⟩ = (l.flags frame, l.endpoints frame) := by
  have hudp : ¬ l.HasUdp frame := fun hudp => absurd (h.1.symm.trans hudp.1) (by decide)
  constructor
  · rw [IpLayer.inner, if_neg fun hvxlan => hudp hvxlan.1]
  · rw [extractL4, if_pos h.1, extractIpportFromTcpLayer, if_neg (Nat.not_lt.mpr h.2),
      IpLayer.flags, if_pos (.inl h), IpLayer.endpoints, IpLayer.sport, IpLayer.dport,
      if_pos (.inl h), if_pos (.inl h)]

/-- A UDP header leaves its ports, unless a frame inside leaves others. -/
theorem IpLayer.extractL4_of_hasUdp (l : IpLayer) (h : l.HasUdp frame) :
    extractL4 frame (l.protocol frame) (l.l4Offset frame)
        ⟨some (l.sip frame), 0, some (l.dip frame), 0⟩ =
      match l.inner frame with
      | none => (l.flags frame, l.endpoints frame)
      | some inside =>
        let found := extractIpportFromEtherLayer frame inside (l.endpoints frame)
        (l.flags frame ||| found.1, found.2) := by
  have htcp : ¬ l.protocol frame = ipprotoTcp := by
    rw [h.1]
    decide
  have hflags : l.flags frame = ipportFlagsIp ||| ipportFlagsPort := if_pos (.inr h)
  have hsport : l.sport frame = portAt frame (l.l4Offset frame) := if_pos (.inr h)
  have hdport : l.dport frame = portAt frame (l.l4Offset frame + 2) := if_pos (.inr h)
  rw [extractL4, if_neg htcp, if_pos h.1, extractIpportFromUdpLayer, if_neg (Nat.not_lt.mpr h.2),
    hflags, IpLayer.endpoints, IpLayer.inner, ← hsport, ← hdport]
  by_cases hvxlan : 4700 ≤ l.dport frame ∧ l.dport frame < 4800
  · simp only [if_pos hvxlan]
    rw [extractIpportFromMaybeVxlanLayer]
    by_cases hlong : l.l4Offset frame + 50 ≤ frame.length
    · have hroom : ¬ frame.length < l.l4Offset frame + 8 + 8 + etherHeaderLen + 20 := by
        rw [etherHeaderLen]
        omega
      rw [if_neg hroom, if_pos ⟨h, hvxlan.1, hvxlan.2, hlong⟩]
      simp only [Nat.or_assoc]
    · have hroom : frame.length < l.l4Offset frame + 8 + 8 + etherHeaderLen + 20 := by
        rw [etherHeaderLen]
        omega
      rw [if_pos hroom, if_neg fun hin => hlong hin.2.2.2]
      simp only [Nat.or_zero]
  · rw [if_neg hvxlan, if_neg fun hin => hvxlan ⟨hin.2.1, hin.2.2.1⟩]

/-- **One layer** leaves its own endpoints, unless a frame inside leaves others. -/
theorem extractIpportFromEtherLayer_step (h : ipLayerAt frame offset = some l) (out : Endpoints) :
    extractIpportFromEtherLayer frame offset out =
      match l.inner frame with
      | none => (l.flags frame, l.endpoints frame)
      | some inside =>
        let found := extractIpportFromEtherLayer frame inside (l.endpoints frame)
        (l.flags frame ||| found.1, found.2) := by
  rw [extractIpportFromEtherLayer_of_some h]
  by_cases htcp : l.HasTcp frame
  · obtain ⟨hinner, heq⟩ := l.extractL4_of_hasTcp htcp
    rw [hinner, heq]
  · by_cases hudp : l.HasUdp frame
    · exact l.extractL4_of_hasUdp hudp
    · have hneither : ¬ (l.HasTcp frame ∨ l.HasUdp frame) := not_or.mpr ⟨htcp, hudp⟩
      rw [IpLayer.inner, if_neg fun hin => hudp hin.1, IpLayer.flags, if_neg hneither,
        IpLayer.endpoints, IpLayer.sport, IpLayer.dport, if_neg hneither, if_neg hneither,
        extractL4]
      split_ifs with hisTcp hisUdp
      · rw [extractIpportFromTcpLayer, if_pos (Nat.lt_of_not_le fun hle => htcp ⟨hisTcp, hle⟩)]
        rfl
      · rw [extractIpportFromUdpLayer, if_pos (Nat.lt_of_not_le fun hle => hudp ⟨hisUdp, hle⟩)]
        rfl
      · rfl

theorem IpLayer.flags_or_and (l : IpLayer) (frame : List UInt8) (more : ℕ) :
    (l.flags frame ||| more) &&& ipportFlagsIp ≠ 0 := by
  have hown : l.flags frame &&& ipportFlagsIp = 1 := by
    rw [IpLayer.flags]
    split_ifs
    all_goals rfl
  rw [Nat.and_or_distrib_right, hown]
  have hle : 1 ≤ 1 ||| (more &&& ipportFlagsIp) := Nat.left_le_or
  omega

/-- **The extraction leaves the endpoints of the innermost layer**, and without one changes nothing.
-/
theorem extractIpportFromEtherLayer_eq_layers (frame : List UInt8) (offset : ℕ) (out : Endpoints) :
    ((extractIpportFromEtherLayer frame offset out).1 &&& ipportFlagsIp ≠ 0 ↔
        ipLayers frame offset ≠ []) ∧
      (extractIpportFromEtherLayer frame offset out).2 =
        ((ipLayers frame offset).getLast?.map fun l => l.endpoints frame).getD out := by
  fun_induction ipLayers frame offset generalizing out with
  | case1 offset hlayer =>
    rw [extractIpportFromEtherLayer_of_none hlayer]
    exact ⟨by simp, rfl⟩
  | case2 offset l hlayer hinner =>
    have hflags := l.flags_or_and frame 0
    rw [Nat.or_zero] at hflags
    rw [extractIpportFromEtherLayer_step hlayer, hinner]
    exact ⟨⟨fun _ => List.cons_ne_nil _ _, fun _ => hflags⟩, rfl⟩
  | case3 offset l hlayer inside hinner ih =>
    obtain ⟨-, hfound⟩ := ih (l.endpoints frame)
    rw [extractIpportFromEtherLayer_step hlayer, hinner]
    refine ⟨⟨fun _ => List.cons_ne_nil _ _, fun _ => l.flags_or_and frame _⟩, ?_⟩
    simp only
    rw [hfound, List.getLast?_cons]
    cases (ipLayers frame inside).getLast? with
    | none | some innermost => rfl

end Extraction

end CloudProbe.Worker
