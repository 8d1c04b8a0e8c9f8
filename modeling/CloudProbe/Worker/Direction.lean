import CloudProbe.Worker.IpLayers

/-!
# What the judged direction depends on

Under a custom pattern the direction of a frame is a function of the endpoints of its innermost IP
layer, source before destination (`judge_eq_layers`). The outer layer of a frame depends on the
bytes before its IP header only, and its endpoints and what is inside on the fields of the IP header
and on the two ports (`IpLayer.SameShape`).
-/

namespace CloudProbe.Worker

open Lib

/-- The direction of a packet with the endpoints.
Source: `req_pattern.c` `req_pattern_judge_pkt_direction` -/
def judgeEndpoints (node : Option Node) (sip : IpAddr) (sport : UInt16) (dip : IpAddr)
    (dport : UInt16) : PktDir :=
  if reqPatternCustomMatchByIpport node sip sport then .outgoing
  else if reqPatternCustomMatchByIpport node dip dport then .incoming
  else .unknown

def IpLayer.judge (node : Option Node) (l : IpLayer) (frame : List UInt8) : PktDir :=
  judgeEndpoints node (l.sip frame) (l.sport frame) (l.dip frame) (l.dport frame)

theorem judge_eq_layers (node : Option Node) (frame : List UInt8) :
    reqPatternJudgePktDirection (.custom node) frame =
      ((ipLayers frame 0).getLast?.map fun l => l.judge node frame).getD .unknown := by
  obtain ⟨hip, hfound⟩ := extractIpportFromEtherLayer_eq_layers frame 0 ⟨none, 0, none, 0⟩
  rw [reqPatternJudgePktDirection]
  simp only
  by_cases hnil : ipLayers frame 0 = []
  · rw [if_neg fun hflags => hip.mp hflags hnil, hnil]
    rfl
  · rw [if_pos (hip.mpr hnil), hfound, List.getLast?_eq_some_getLast hnil]
    rfl

theorem judge_of_none {frame : List UInt8} (h : ipLayerAt frame 0 = none) (node : Option Node) :
    reqPatternJudgePktDirection (.custom node) frame = .unknown := by
  rw [judge_eq_layers, ipLayers_of_none h]
  rfl

theorem judge_of_inner_none {frame : List UInt8} {l : IpLayer} (h : ipLayerAt frame 0 = some l)
    (hinner : l.inner frame = none) (node : Option Node) :
    reqPatternJudgePktDirection (.custom node) frame = l.judge node frame := by
  rw [judge_eq_layers, ipLayers_of_inner_none h hinner]
  rfl

/-! ## Locality -/

section Locality

variable {f g : List UInt8}

theorem skipTagStack_congr {ethType offset ethType' offset' : ℕ} (hlength : g.length = f.length)
    (h : skipTagStack f ethType offset = some (ethType', offset'))
    (hagree : ∀ i < offset', g[i]? = f[i]?) :
    skipTagStack g ethType offset = some (ethType', offset') := by
  fun_induction skipTagStack f ethType offset with
  | case1 => cases h
  | case2 ethType offset hvlan hcaptured ih =>
    have hle := le_of_skipTagStack h
    have htype : u16At g (offset + 2) = u16At f (offset + 2) :=
      u16At_congr fun j _ hlt => hagree j (by omega)
    rw [skipTagStack, if_pos hvlan, if_neg (by omega), htype]
    exact ih h
  | case3 ethType offset hvlan =>
    rw [skipTagStack, if_neg hvlan]
    exact h

theorem ipLayerAt_congr {l : IpLayer} (h : ipLayerAt f 0 = some l) (hlength : g.length = f.length)
    (hagree : ∀ i < l.ipOffset, g[i]? = f[i]?) : ipLayerAt g 0 = some l := by
  have hbounds := ipLayerAt_bounds h
  have htype : u16At g (0 + 12) = u16At f (0 + 12) :=
    u16At_congr fun j _ hlt => hagree j (by omega)
  rw [ipLayerAt] at h ⊢
  rw [hlength, htype]
  split_ifs at h ⊢ with hcut
  split at h
  · cases h
  · next ethType ipOffset htags =>
    have hoffset : l.ipOffset = ipOffset := by
      split_ifs at h with h4 h6
      all_goals
        obtain rfl := Option.some.inj h
        rfl
    rw [skipTagStack_congr hlength htags (hoffset ▸ hagree)]
    exact h

end Locality

/-- Two frames of one length in which a layer has the same protocol at the same place. -/
structure IpLayer.SameShape (l : IpLayer) (f g : List UInt8) : Prop where
  length_eq : g.length = f.length
  protocol : l.protocol g = l.protocol f
  l4Offset : l.l4Offset g = l.l4Offset f

namespace IpLayer.SameShape

variable {l : IpLayer} {f g : List UInt8}

theorem hasTcp_iff (h : l.SameShape f g) : l.HasTcp g ↔ l.HasTcp f := by
  rw [IpLayer.HasTcp, IpLayer.HasTcp, h.protocol, h.l4Offset, h.length_eq]

theorem hasUdp_iff (h : l.SameShape f g) : l.HasUdp g ↔ l.HasUdp f := by
  rw [IpLayer.HasUdp, IpLayer.HasUdp, h.protocol, h.l4Offset, h.length_eq]

theorem ports_eq (h : l.SameShape f g)
    (hports : l.HasTcp f ∨ l.HasUdp f →
      ∀ i, l.l4Offset f ≤ i → i < l.l4Offset f + 4 → g[i]? = f[i]?) :
    l.sport g = l.sport f ∧ l.dport g = l.dport f := by
  simp only [IpLayer.sport, IpLayer.dport, h.hasTcp_iff, h.hasUdp_iff, h.l4Offset]
  by_cases hl4 : l.HasTcp f ∨ l.HasUdp f
  · have hagree := hports hl4
    rw [if_pos hl4, if_pos hl4, if_pos hl4, if_pos hl4, portAt, portAt, portAt, portAt,
      u16At_congr fun j hle hlt => hagree j hle (by omega),
      u16At_congr fun j hle hlt => hagree j (by omega) (by omega)]
    exact ⟨rfl, rfl⟩
  · rw [if_neg hl4, if_neg hl4, if_neg hl4, if_neg hl4]
    exact ⟨rfl, rfl⟩

theorem inner_eq (h : l.SameShape f g) (hdport : l.dport g = l.dport f) :
    l.inner g = l.inner f := by
  simp only [IpLayer.inner, h.hasUdp_iff, hdport, h.l4Offset, h.length_eq]

end IpLayer.SameShape

end CloudProbe.Worker
