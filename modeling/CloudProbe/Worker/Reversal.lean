import CloudProbe.Worker.PayloadBlind

/-!
# The direction of the reversed packet

`IpLayer.Reversed l f g` relates a frame to one of the opposite direction: source and destination
address are exchanged and, where the TCP or UDP header was captured, the ports. That an IPv4 header
has at least five words is only needed for the reversed frame to exist: in a shorter one the ports
lie on the addresses.
-/

namespace CloudProbe.Worker

open Lib

namespace IpLayer

variable (l : IpLayer)

def sipOffset : ℕ := if l.isIpv4 then l.ipOffset + 12 else l.ipOffset + 8

/-- The bytes of an address; the destination address follows the source address. -/
def addrLen : ℕ := if l.isIpv4 then 4 else 16

structure Reversed (f g : List UInt8) : Prop where
  length_eq : g.length = f.length
  before : ∀ i < l.sipOffset, g[i]? = f[i]?
  sip : (g.drop l.sipOffset).take l.addrLen =
    (f.drop (l.sipOffset + l.addrLen)).take l.addrLen
  dip : (g.drop (l.sipOffset + l.addrLen)).take l.addrLen =
    (f.drop l.sipOffset).take l.addrLen
  sport : l.HasTcp f ∨ l.HasUdp f →
    (g.drop (l.l4Offset f)).take 2 = (f.drop (l.l4Offset f + 2)).take 2
  dport : l.HasTcp f ∨ l.HasUdp f →
    (g.drop (l.l4Offset f + 2)).take 2 = (f.drop (l.l4Offset f)).take 2

/-- The frame with the addresses and, behind them, the ports exchanged. -/
def reverse (f : List UInt8) : List UInt8 :=
  let swapped := swapFields f l.sipOffset (l.sipOffset + l.addrLen) l.addrLen
  if l.HasTcp f ∨ l.HasUdp f then swapFields swapped (l.l4Offset f) (l.l4Offset f + 2) 2
  else swapped

end IpLayer

section Reversal

variable {l : IpLayer} {f g : List UInt8}

def IpLayer.addr (l : IpLayer) (bytes : List UInt8) : IpAddr :=
  if l.isIpv4 then .v4 (BitVec.ofNat 32 (ofBe bytes)) else .v6 (BitVec.ofNat 128 (ofBe bytes))

theorem IpLayer.sip_eq (l : IpLayer) (f : List UInt8) :
    l.sip f = l.addr ((f.drop l.sipOffset).take l.addrLen) := by
  rw [IpLayer.sip, IpLayer.addr, IpLayer.sipOffset, IpLayer.addrLen]
  split_ifs <;> rfl

theorem IpLayer.dip_eq (l : IpLayer) (f : List UInt8) :
    l.dip f = l.addr ((f.drop (l.sipOffset + l.addrLen)).take l.addrLen) := by
  rw [IpLayer.dip, IpLayer.addr, IpLayer.sipOffset, IpLayer.addrLen]
  split_ifs <;> rfl

namespace IpLayer.Reversed

theorem addresses (h : l.Reversed f g) : l.sip g = l.dip f ∧ l.dip g = l.sip f := by
  rw [IpLayer.sip_eq, IpLayer.dip_eq, IpLayer.sip_eq, IpLayer.dip_eq, h.sip, h.dip]
  exact ⟨rfl, rfl⟩

theorem sameShape (h : l.Reversed f g) : l.SameShape f g := by
  have hbefore := h.before
  rw [IpLayer.sipOffset] at hbefore
  refine ⟨h.length_eq, ?_, ?_⟩
  · rw [IpLayer.protocol, IpLayer.protocol]
    apply byteAt_congr
    apply hbefore
    split_ifs <;> omega
  · rw [IpLayer.l4Offset, IpLayer.l4Offset, IpLayer.ihl, IpLayer.ihl, byteAt_congr]
    apply hbefore
    split_ifs <;> omega

theorem ports (h : l.Reversed f g) : l.sport g = l.dport f ∧ l.dport g = l.sport f := by
  have hshape := h.sameShape
  simp only [IpLayer.sport, IpLayer.dport, hshape.hasTcp_iff, hshape.hasUdp_iff, hshape.l4Offset]
  split_ifs with hl4
  · rw [portAt, portAt, portAt, portAt, u16At, u16At, u16At, u16At, h.sport hl4, h.dport hl4]
    exact ⟨rfl, rfl⟩
  · exact ⟨rfl, rfl⟩

theorem ipLayerAt_eq (h : l.Reversed f g) (hl : ipLayerAt f 0 = some l) :
    ipLayerAt g 0 = some l := by
  apply ipLayerAt_congr hl h.length_eq
  intro i hi
  apply h.before
  rw [IpLayer.sipOffset]
  split_ifs <;> omega

theorem judge_eq (h : l.Reversed f g) (hl : ipLayerAt f 0 = some l)
    (hport : l.HasUdp f → ¬ (4700 ≤ l.sport f ∧ l.sport f < 4800)) (node : Option Node) :
    reqPatternJudgePktDirection (.custom node) g =
      judgeEndpoints node (l.dip f) (l.dport f) (l.sip f) (l.sport f) := by
  obtain ⟨hsip, hdip⟩ := h.addresses
  obtain ⟨hsport, hdport⟩ := h.ports
  have hinner : l.inner g = none := by
    apply IpLayer.inner_eq_none
    intro hudp
    rw [hdport]
    exact hport (h.sameShape.hasUdp_iff.mp hudp)
  rw [judge_of_inner_none (h.ipLayerAt_eq hl) hinner, IpLayer.judge, hsip, hdip, hsport, hdport]

end IpLayer.Reversed

/-- Exchanging the endpoints exchanges the directions. -/
theorem judgeEndpoints_reversal (node : Option Node) (sip : IpAddr) (sport : UInt16) (dip : IpAddr)
    (dport : UInt16) :
    (judgeEndpoints node sip sport dip dport = .unknown ↔
        judgeEndpoints node dip dport sip sport = .unknown) ∧
      (judgeEndpoints node sip sport dip dport = .incoming →
        judgeEndpoints node dip dport sip sport = .outgoing) ∧
      (judgeEndpoints node dip dport sip sport = .incoming →
        judgeEndpoints node sip sport dip dport = .outgoing) ∧
      (judgeEndpoints node sip sport dip dport = .outgoing ∧
          judgeEndpoints node dip dport sip sport = .outgoing ↔
        reqPatternCustomMatchByIpport node sip sport = true ∧
          reqPatternCustomMatchByIpport node dip dport = true) := by
  simp only [judgeEndpoints]
  cases reqPatternCustomMatchByIpport node sip sport <;>
    cases reqPatternCustomMatchByIpport node dip dport <;> simp

/-- **Reversal** exchanges incoming and outgoing and keeps unknown; both are outgoing exactly when
both endpoints match the pattern. -/
theorem direction_reversal (node : Option Node) (hl : ipLayerAt f 0 = some l)
    (hreversed : l.Reversed f g)
    (hport : l.HasUdp f → ¬ (4700 ≤ l.sport f ∧ l.sport f < 4800) ∧
      ¬ (4700 ≤ l.dport f ∧ l.dport f < 4800)) :
    (reqPatternJudgePktDirection (.custom node) f = .unknown ↔
        reqPatternJudgePktDirection (.custom node) g = .unknown) ∧
      (reqPatternJudgePktDirection (.custom node) f = .incoming →
        reqPatternJudgePktDirection (.custom node) g = .outgoing) ∧
      (reqPatternJudgePktDirection (.custom node) g = .incoming →
        reqPatternJudgePktDirection (.custom node) f = .outgoing) ∧
      (reqPatternJudgePktDirection (.custom node) f = .outgoing ∧
          reqPatternJudgePktDirection (.custom node) g = .outgoing ↔
        reqPatternCustomMatchByIpport node (l.sip f) (l.sport f) = true ∧
          reqPatternCustomMatchByIpport node (l.dip f) (l.dport f) = true) := by
  have hinner : l.inner f = none := IpLayer.inner_eq_none fun hudp => (hport hudp).2
  rw [judge_of_inner_none hl hinner, hreversed.judge_eq hl fun hudp => (hport hudp).1]
  exact judgeEndpoints_reversal node (l.sip f) (l.sport f) (l.dip f) (l.dport f)

theorem IpLayer.addresses_le (hl : ipLayerAt f 0 = some l) (hihl : l.isIpv4 = true → 5 ≤ l.ihl f) :
    l.sipOffset + l.addrLen + l.addrLen ≤ f.length ∧
      l.sipOffset + l.addrLen + l.addrLen ≤ l.l4Offset f := by
  have hbounds := (ipLayerAt_bounds hl).2
  rw [IpLayer.sipOffset, IpLayer.addrLen, IpLayer.l4Offset]
  split_ifs at hbounds ⊢ with h4
  · have hwords := hihl h4
    omega
  · omega

/-- There is a reversed frame for every frame with an IP header. -/
theorem IpLayer.reversed_reverse (hl : ipLayerAt f 0 = some l)
    (hihl : l.isIpv4 = true → 5 ≤ l.ihl f) : l.Reversed f (l.reverse f) := by
  obtain ⟨hroom, hl4⟩ := IpLayer.addresses_le hl hihl
  have hoff : EqOff _ f (swapFields f l.sipOffset (l.sipOffset + l.addrLen) l.addrLen) :=
    eqOff_swapFields (by omega) hroom
  have hsip := slice_swapFields_left (Nat.le_refl (l.sipOffset + l.addrLen)) hroom
  have hdip := slice_swapFields_right (Nat.le_of_add_right_le hroom) hroom
  rw [IpLayer.reverse]
  generalize swapFields f l.sipOffset (l.sipOffset + l.addrLen) l.addrLen = h at hoff hsip hdip ⊢
  have hbefore : ∀ i < l.sipOffset, h[i]? = f[i]? := fun i hi =>
    hoff.getElem? i (by simp only [Set.mem_union, Set.mem_Ico]; omega)
  have hbehind : ∀ pos, l.l4Offset f ≤ pos → (h.drop pos).take 2 = (f.drop pos).take 2 :=
    fun pos hpos => hoff.slice fun i hle _ => by
      simp only [Set.mem_union, Set.mem_Ico]
      omega
  split_ifs with hports
  · have hports_le : l.l4Offset f + 2 + 2 ≤ h.length := by
      rw [hoff.length_eq]
      obtain htcp | hudp := hports
      · exact Nat.le_trans (by omega) htcp.2
      · exact Nat.le_trans (by omega) hudp.2
    have hoff' := eqOff_swapFields (i := l.l4Offset f) (j := l.l4Offset f + 2) (n := 2)
      (Nat.le_of_add_right_le hports_le) hports_le
    have hfields : ∀ i < l.l4Offset f,
        (swapFields h (l.l4Offset f) (l.l4Offset f + 2) 2)[i]? = h[i]? := fun i hi =>
      hoff'.getElem? i (by simp only [Set.mem_union, Set.mem_Ico]; omega)
    refine ⟨hoff'.length_eq.trans hoff.length_eq, ?_, ?_, ?_, fun _ => ?_, fun _ => ?_⟩
    · intro i hi
      rw [hfields i (by omega), hbefore i hi]
    · rw [slice_congr fun i _ hlt => hfields i (by omega), hsip]
    · rw [slice_congr fun i _ hlt => hfields i (by omega), hdip]
    · rw [slice_swapFields_left (Nat.le_refl _) hports_le, hbehind _ (Nat.le_add_right _ _)]
    · rw [slice_swapFields_right (Nat.le_of_add_right_le hports_le) hports_le,
        hbehind _ (Nat.le_refl _)]
  · exact ⟨hoff.length_eq, hbefore, hsip, hdip, fun hl4 => absurd hl4 hports,
      fun hl4 => absurd hl4 hports⟩

end Reversal

/-- The pattern `port 53` calls a DNS query incoming, hence the reversed frame outgoing. -/
theorem direction_reversal_dns :
    reqPatternJudgePktDirection (.custom (some (.port 53)))
      ((⟨true, 14⟩ : IpLayer).reverse (dnsFrame [])) = .outgoing := by
  have hlayer : ipLayerAt (dnsFrame []) 0 = some ⟨true, 14⟩ := by decide +kernel
  have hihl : 5 ≤ (⟨true, 14⟩ : IpLayer).ihl (dnsFrame []) := by decide +kernel
  have hports : ¬ (4700 ≤ (⟨true, 14⟩ : IpLayer).sport (dnsFrame []) ∧
        (⟨true, 14⟩ : IpLayer).sport (dnsFrame []) < 4800) ∧
      ¬ (4700 ≤ (⟨true, 14⟩ : IpLayer).dport (dnsFrame []) ∧
        (⟨true, 14⟩ : IpLayer).dport (dnsFrame []) < 4800) := by decide +kernel
  have hquery : reqPatternJudgePktDirection (.custom (some (.port 53))) (dnsFrame []) = .incoming :=
    by decide +kernel
  exact (direction_reversal (some (.port 53)) hlayer
    (IpLayer.reversed_reverse hlayer fun _ => hihl) fun _ => hports).2.1 hquery

end CloudProbe.Worker
