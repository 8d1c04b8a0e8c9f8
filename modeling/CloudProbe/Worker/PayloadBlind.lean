import CloudProbe.Worker.Direction

/-!
# When the direction ignores the payload

Two frames agree on their headers when they have the same length, the same Ethernet, VLAN and IP
header bytes and, unless the packet is a later fragment, the same bytes where the TCP or UDP header
is (`SameHeaders`).

The extraction does not look at the fragment offset. In a later IPv4 fragment it takes the first
payload bytes for ports, and when they spell a VXLAN port, what follows for a frame. IPv6 fragments
are safe: their next header is neither TCP nor UDP.

An IPv4 header that claims less than five words puts the ports into itself; then only a frame inside
reaches the payload.
-/

namespace CloudProbe.Worker

open Lib Option

/-- Where the Ethernet, VLAN and IP headers of a frame end. When a tag was cut there is nothing
else; an IPv4 header has 20 bytes also when it claims less. -/
def headersEnd (frame : List UInt8) : ℕ :=
  if frame.length < etherHeaderLen then frame.length
  else
    match skipTagStack frame (u16At frame 12) etherHeaderLen with
    | none => frame.length
    | some (ethType, ipOffset) =>
      if ethType = 0x0800 then ipOffset + max 20 (byteAt frame ipOffset % 16 * 4)
      else if ethType = 0x86dd then ipOffset + 40
      else ipOffset

namespace IpLayer

variable (l : IpLayer) (frame : List UInt8)

/-- The packet is no fragment or the first one: its fragment offset is 0. (An IPv6 packet whose next
header is TCP or UDP is no fragment.) -/
def HasL4Header : Prop := l.isIpv4 = true → u16At frame (l.ipOffset + 6) % 0x2000 = 0

/-- The length of the TCP or UDP header without options. -/
def l4HeaderLen : ℕ :=
  if l.protocol frame = ipprotoTcp then 20 else if l.protocol frame = ipprotoUdp then 8 else 0

/-- The extraction takes payload bytes of a later fragment for ports, or for a frame. -/
def ReadsPayload : Prop :=
  ¬ l.HasL4Header frame ∧ (l.HasTcp frame ∨ l.HasUdp frame) ∧
    (5 ≤ l.ihl frame ∨ (l.inner frame).isSome = true)

end IpLayer

/-- The frames have the same length and the same header bytes. -/
structure SameHeaders (f g : List UInt8) : Prop where
  length_eq : g.length = f.length
  headers : ∀ i < headersEnd f, g[i]? = f[i]?
  l4 : ∀ l, ipLayerAt f 0 = some l → l.HasL4Header f →
    ∀ i, l.l4Offset f ≤ i → i < l.l4Offset f + l.l4HeaderLen f → g[i]? = f[i]?

section Headers

variable {f g : List UInt8} {l : IpLayer}

theorem headersEnd_of_layer (h : ipLayerAt f 0 = some l) :
    headersEnd f = l.ipOffset + if l.isIpv4 then max 20 (l.ihl f * 4) else 40 := by
  rw [ipLayerAt, Nat.zero_add, Nat.zero_add] at h
  split_ifs at h with hcut
  rw [headersEnd, if_neg hcut]
  cases htags : skipTagStack f (u16At f 12) etherHeaderLen with
  | none =>
    rw [htags] at h
    cases h
  | some found =>
    obtain ⟨ethType, ipOffset⟩ := found
    rw [htags] at h
    dsimp only at h ⊢
    split_ifs at h with h4 h6
    · obtain rfl := some.inj h
      exact if_pos h4.1
    · obtain rfl := some.inj h
      exact (if_neg (by omega)).trans (if_pos h6.1)

namespace SameHeaders

/-- The same headers have the same IP layer. -/
theorem ipLayerAt_eq (h : SameHeaders f g) : ipLayerAt g 0 = ipLayerAt f 0 := by
  have hagree := h.headers
  rw [ipLayerAt, ipLayerAt, h.length_eq]
  rw [headersEnd] at hagree
  rw [Nat.zero_add, Nat.zero_add]
  split_ifs at hagree ⊢ with hcut
  rw [etherHeaderLen] at hcut
  cases htags : skipTagStack f (u16At f 12) etherHeaderLen with
  | none =>
    rw [htags] at hagree
    have heq : g = f := by
      apply List.ext_getElem?
      intro i
      by_cases hi : i < f.length
      · exact hagree i hi
      · rw [List.getElem?_eq_none (h.length_eq ▸ Nat.not_lt.mp hi),
          List.getElem?_eq_none (Nat.not_lt.mp hi)]
    rw [heq, htags]
  | some found =>
    obtain ⟨ethType, ipOffset⟩ := found
    rw [htags] at hagree
    have hbefore : ∀ i < ipOffset, g[i]? = f[i]? := by
      intro i hi
      apply hagree
      dsimp only
      split_ifs <;> omega
    have hle := le_of_skipTagStack htags
    rw [etherHeaderLen] at hle
    have htype : u16At g 12 = u16At f 12 := u16At_congr fun j _ hlt => hbefore j (by omega)
    rw [htype, skipTagStack_congr h.length_eq htags hbefore]

theorem agree (h : SameHeaders f g) (hl : ipLayerAt f 0 = some l) {i : ℕ}
    (hi : i < l.ipOffset + if l.isIpv4 then max 20 (l.ihl f * 4) else 40) : g[i]? = f[i]? :=
  h.headers i (by rw [headersEnd_of_layer hl]; exact hi)

theorem sameShape (h : SameHeaders f g) (hl : ipLayerAt f 0 = some l) : l.SameShape f g := by
  have hihl : l.isIpv4 = true → l.ihl g = l.ihl f := by
    intro h4
    rw [IpLayer.ihl, IpLayer.ihl, byteAt_congr (h.agree hl (by rw [if_pos h4]; omega))]
  refine ⟨h.length_eq, ?_, ?_⟩
  · rw [IpLayer.protocol, IpLayer.protocol]
    apply byteAt_congr
    apply h.agree hl
    split_ifs <;> omega
  · rw [IpLayer.l4Offset, IpLayer.l4Offset]
    split_ifs with h4
    · rw [hihl h4]
    · rfl

theorem addresses_eq (h : SameHeaders f g) (hl : ipLayerAt f 0 = some l) :
    l.sip g = l.sip f ∧ l.dip g = l.dip f := by
  have hagree := fun i => @agree f g l h hl i
  simp only [IpLayer.sip, IpLayer.dip]
  split_ifs at hagree ⊢ with h4
  · rw [ipv4At, ipv4At, ipv4At, ipv4At, u32At, u32At, u32At, u32At,
      slice_congr fun j hle hlt => hagree j (by omega),
      slice_congr fun j hle hlt => hagree j (by omega)]
    exact ⟨rfl, rfl⟩
  · rw [ipv6At, ipv6At, ipv6At, ipv6At, slice_congr fun j hle hlt => hagree j (by omega),
      slice_congr fun j hle hlt => hagree j (by omega)]
    exact ⟨rfl, rfl⟩

end SameHeaders

end Headers

/-! ## Headers decide -/

section Decide

variable {f g : List UInt8} {l : IpLayer}

/-- Without a frame inside, addresses and ports decide. -/
theorem judge_eq_of_ports (h : SameHeaders f g) (hl : ipLayerAt f 0 = some l)
    (hinner : l.inner f = none)
    (hports : l.HasTcp f ∨ l.HasUdp f →
      ∀ i, l.l4Offset f ≤ i → i < l.l4Offset f + 4 → g[i]? = f[i]?) (node : Option Node) :
    reqPatternJudgePktDirection (.custom node) g =
      reqPatternJudgePktDirection (.custom node) f := by
  have hshape := h.sameShape hl
  obtain ⟨hsip, hdip⟩ := h.addresses_eq hl
  obtain ⟨hsport, hdport⟩ := hshape.ports_eq hports
  have hinner' : l.inner g = none := (hshape.inner_eq hdport).trans hinner
  rw [judge_of_inner_none (h.ipLayerAt_eq.trans hl) hinner', judge_of_inner_none hl hinner,
    IpLayer.judge, IpLayer.judge, hsip, hdip, hsport, hdport]

theorem IpLayer.inner_eq_none
    (hport : l.HasUdp f → ¬ (4700 ≤ l.dport f ∧ l.dport f < 4800)) : l.inner f = none := by
  rw [IpLayer.inner, if_neg]
  rintro ⟨hudp, hlow, hhigh, -⟩
  exact hport hudp ⟨hlow, hhigh⟩

theorem IpLayer.four_le_l4HeaderLen (hl4 : l.HasTcp f ∨ l.HasUdp f) : 4 ≤ l.l4HeaderLen f := by
  rw [IpLayer.l4HeaderLen]
  obtain htcp | hudp := hl4
  · rw [if_pos htcp.1]
    omega
  · split_ifs with htcp hudp'
    · omega
    · omega
    · exact absurd hudp.1 hudp'

theorem IpLayer.isIpv4_of_not_hasL4Header (h : ¬ l.HasL4Header f) : l.isIpv4 = true := by
  by_contra h6
  exact h fun h4 => absurd h4 h6

/-- Without payload reads the headers decide. -/
theorem judge_eq_of_not_readsPayload (h : SameHeaders f g) (hl : ipLayerAt f 0 = some l)
    (hport : l.HasL4Header f → l.HasUdp f → ¬ (4700 ≤ l.dport f ∧ l.dport f < 4800))
    (hreads : ¬ l.ReadsPayload f) (node : Option Node) :
    reqPatternJudgePktDirection (.custom node) g =
      reqPatternJudgePktDirection (.custom node) f := by
  by_cases hfirst : l.HasL4Header f
  · refine judge_eq_of_ports h hl (IpLayer.inner_eq_none (hport hfirst)) ?_ node
    intro hl4 i hle hlt
    have hlen := IpLayer.four_le_l4HeaderLen hl4
    exact h.l4 l hl hfirst i hle (by omega)
  by_cases hl4 : l.HasTcp f ∨ l.HasUdp f
  · -- A later fragment with a short header: the ports are bytes of the IP header itself.
    have h4 := IpLayer.isIpv4_of_not_hasL4Header hfirst
    have hshort : l.ihl f < 5 ∧ l.inner f = none := by
      constructor
      · exact Nat.lt_of_not_le fun hihl => hreads ⟨hfirst, hl4, .inl hihl⟩
      · exact not_isSome_iff_eq_none.mp fun hinner => hreads ⟨hfirst, hl4, .inr hinner⟩
    refine judge_eq_of_ports h hl hshort.2 ?_ node
    intro _ i hle hlt
    rw [IpLayer.l4Offset, if_pos h4] at hle hlt
    apply h.agree hl
    rw [if_pos h4]
    omega
  · refine judge_eq_of_ports h hl (IpLayer.inner_eq_none fun hudp => absurd (.inr hudp) hl4) ?_ node
    intro hl4'
    exact absurd hl4' hl4

end Decide

/-! ## Payload decides -/

section Payload

variable {f : List UInt8} {l : IpLayer}

theorem sameHeaders_patch (hl : ipLayerAt f 0 = some l) (hfirst : ¬ l.HasL4Header f) {pos : ℕ}
    {bytes : List UInt8} (hpos : headersEnd f ≤ pos) (hroom : pos + bytes.length ≤ f.length) :
    SameHeaders f (patch f pos bytes) := by
  have hoff := eqOff_patch hroom
  refine ⟨hoff.length_eq, ?_, ?_⟩
  · intro i hi
    exact hoff.getElem? i fun hmem => absurd hmem.1 (by omega)
  · intro l' hl' hfirst'
    obtain rfl := some.inj (hl.symm.trans hl')
    exact absurd hfirst' hfirst

/-- A payload taken for ports is judged by its first bytes. -/
theorem judge_patch_ports (hl : ipLayerAt f 0 = some l) (hfirst : ¬ l.HasL4Header f)
    (hl4 : l.HasTcp f ∨ l.HasUdp f) (hend : headersEnd f ≤ l.l4Offset f) (p : UInt8)
    (node : Option Node) :
    SameHeaders f (patch f (l.l4Offset f) [0, p, 0, p]) ∧
      reqPatternJudgePktDirection (.custom node) (patch f (l.l4Offset f) [0, p, 0, p]) =
        judgeEndpoints node (l.sip f) (.ofNat p.toNat) (l.dip f) (.ofNat p.toNat) := by
  have hroom : l.l4Offset f + 8 ≤ f.length := by
    obtain htcp | hudp := hl4
    · exact Nat.le_trans (by omega) htcp.2
    · exact hudp.2
  have hsame : SameHeaders f (patch f (l.l4Offset f) [0, p, 0, p]) :=
    sameHeaders_patch hl hfirst hend (Nat.le_trans (by simp) hroom)
  refine ⟨hsame, ?_⟩
  have hwritten : ∀ k n, k + n ≤ 4 → ((patch f (l.l4Offset f) [0, p, 0, p]).drop
      (l.l4Offset f + k)).take n = ([0, p, 0, p].drop k).take n :=
    fun k n hn => slice_patch_add [0, p, 0, p] (by omega) hn
  generalize patch f (l.l4Offset f) [0, p, 0, p] = g at hsame hwritten ⊢
  have hshape := hsame.sameShape hl
  have hvalue : ofBe [0, p] = p.toNat := by simp [ofBe]
  have hl4' : l.HasTcp g ∨ l.HasUdp g := by rwa [hshape.hasTcp_iff, hshape.hasUdp_iff]
  have hsport : l.sport g = .ofNat p.toNat := by
    rw [IpLayer.sport, if_pos hl4', portAt, hshape.l4Offset, u16At]
    exact congrArg UInt16.ofNat ((congrArg ofBe (hwritten 0 2 (by omega))).trans hvalue)
  have hdport : l.dport g = .ofNat p.toNat := by
    rw [IpLayer.dport, if_pos hl4', portAt, hshape.l4Offset, u16At]
    exact congrArg UInt16.ofNat ((congrArg ofBe (hwritten 2 2 (by omega))).trans hvalue)
  have hinner : l.inner g = none := by
    apply IpLayer.inner_eq_none
    rintro - ⟨hlow, -⟩
    have hlt := p.toNat_lt
    rw [hdport, UInt16.le_iff_toNat_le, UInt16.toNat_ofNat'] at hlow
    have hbound : (4700 : UInt16).toNat = 4700 := rfl
    omega
  rw [judge_of_inner_none (hsame.ipLayerAt_eq.trans hl) hinner, IpLayer.judge, hsport, hdport,
    (hsame.addresses_eq hl).1, (hsame.addresses_eq hl).2]

/-- The end of an Ethernet header and an IPv4 header from and to `x.x.x.x` without a payload. -/
def insideHeaders (x : UInt8) : List UInt8 :=
  [0x08, 0x00] ++ [0x45, 0, 0, 20, 0, 0, 0, 0, 0, 0, 0, 0, x, x, x, x, x, x, x, x]

/-- The address `x.x.x.x`. -/
def insideAddr (x : UInt8) : IpAddr := .v4 (BitVec.ofNat 32 (ofBe [x, x, x, x]))

theorem byteAt_eq_ofBe (frame : List UInt8) (i : ℕ) :
    byteAt frame i = ofBe ((frame.drop i).take 1) := by
  rw [byteAt, List.getD_eq_getElem?_getD, ← Nat.add_zero i, ← List.getElem?_drop, Nat.add_zero]
  cases frame.drop i with
  | nil => rfl
  | cons byte rest => simp [ofBe]

/-- The headers written into the payload are read as an IP layer. -/
theorem layers_of_insideHeaders {g : List UInt8} {offset : ℕ} {x : UInt8}
    (hroom : offset + 34 ≤ g.length)
    (hwritten : ∀ k n, k + n ≤ 22 →
      (g.drop (offset + 12 + k)).take n = ((insideHeaders x).drop k).take n) (node : Option Node) :
    ipLayers g offset = [⟨true, offset + 14⟩] ∧
      (⟨true, offset + 14⟩ : IpLayer).judge node g =
        judgeEndpoints node (insideAddr x) 0 (insideAddr x) 0 := by
  have htype : u16At g (offset + 12) = 0x0800 := congrArg ofBe (hwritten 0 2 (by omega))
  have hlayer : ipLayerAt g offset = some ⟨true, offset + 14⟩ := by
    rw [ipLayerAt, etherHeaderLen, if_neg (by omega), htype, skipTagStack, if_neg (by decide)]
    exact if_pos ⟨rfl, by omega⟩
  have hprotocol : (⟨true, offset + 14⟩ : IpLayer).protocol g = 0 := by
    rw [IpLayer.protocol, byteAt_eq_ofBe]
    exact congrArg ofBe (hwritten 11 1 (by omega))
  have hl4 : ¬ ((⟨true, offset + 14⟩ : IpLayer).HasTcp g ∨
      (⟨true, offset + 14⟩ : IpLayer).HasUdp g) := by
    rintro (htcp | hudp)
    · exact absurd (hprotocol.symm.trans htcp.1) (by decide)
    · exact absurd (hprotocol.symm.trans hudp.1) (by decide)
  have hinner : (⟨true, offset + 14⟩ : IpLayer).inner g = none :=
    IpLayer.inner_eq_none fun hudp => absurd (.inr hudp) hl4
  refine ⟨ipLayers_of_inner_none hlayer hinner, ?_⟩
  have hsip : (⟨true, offset + 14⟩ : IpLayer).sip g = insideAddr x :=
    congrArg (fun bytes => IpAddr.v4 (BitVec.ofNat 32 (ofBe bytes))) (hwritten 14 4 (by omega))
  have hdip : (⟨true, offset + 14⟩ : IpLayer).dip g = insideAddr x :=
    congrArg (fun bytes => IpAddr.v4 (BitVec.ofNat 32 (ofBe bytes))) (hwritten 18 4 (by omega))
  rw [IpLayer.judge, hsip, hdip, IpLayer.sport, IpLayer.dport, if_neg hl4, if_neg hl4]

/-- A payload with a frame in it is judged by the addresses of that frame. -/
theorem judge_patch_inside (hl : ipLayerAt f 0 = some l) (hfirst : ¬ l.HasL4Header f)
    (hinner : (l.inner f).isSome = true) (hihl : l.ihl f < 5) (x : UInt8) (node : Option Node) :
    SameHeaders f (patch f (l.l4Offset f + 28) (insideHeaders x)) ∧
      reqPatternJudgePktDirection (.custom node)
          (patch f (l.l4Offset f + 28) (insideHeaders x)) =
        judgeEndpoints node (insideAddr x) 0 (insideAddr x) 0 := by
  have h4 := IpLayer.isIpv4_of_not_hasL4Header hfirst
  obtain ⟨inside, hinside⟩ := isSome_iff_exists.mp hinner
  have hvxlan : l.l4Offset f + 50 ≤ f.length ∧ inside = l.l4Offset f + 16 := by
    rw [IpLayer.inner] at hinside
    split_ifs at hinside with hvxlan
    exact ⟨hvxlan.2.2.2, (some.inj hinside).symm⟩
  obtain ⟨hroom, rfl⟩ := hvxlan
  have hend : headersEnd f ≤ l.l4Offset f + 28 := by
    rw [headersEnd_of_layer hl, IpLayer.l4Offset, if_pos h4, if_pos h4]
    omega
  have hsame : SameHeaders f (patch f (l.l4Offset f + 28) (insideHeaders x)) :=
    sameHeaders_patch hl hfirst hend hroom
  refine ⟨hsame, ?_⟩
  have hwritten : ∀ k n, k + n ≤ 22 → ((patch f (l.l4Offset f + 28) (insideHeaders x)).drop
      (l.l4Offset f + 28 + k)).take n = ((insideHeaders x).drop k).take n :=
    fun k n hn => slice_patch_add (insideHeaders x) (by omega) hn
  have hoff : EqOff (Set.Ico (l.l4Offset f + 28) (l.l4Offset f + 28 + (insideHeaders x).length)) f
    (patch f (l.l4Offset f + 28) (insideHeaders x)) := eqOff_patch hroom
  generalize patch f (l.l4Offset f + 28) (insideHeaders x) = g at hsame hwritten hoff ⊢
  have hshape := hsame.sameShape hl
  -- The ports are before the bytes that changed, so the same frame is found inside.
  have hdport := (hshape.ports_eq fun _ i hle hlt =>
    hoff.getElem? i fun hmem => absurd hmem.1 (by omega)).2
  have hinside' : l.inner g = some (l.l4Offset f + 16) := (hshape.inner_eq hdport).trans hinside
  have hlong : l.l4Offset f + 16 + 34 ≤ g.length := hsame.length_eq ▸ hroom
  obtain ⟨hlayers, hjudge⟩ := layers_of_insideHeaders hlong hwritten node
  rw [judge_eq_layers, ipLayers_of_inner_some (hsame.ipLayerAt_eq.trans hl) hinside', hlayers]
  exact hjudge

end Payload

/-! ## The direction and the payload -/

/-- With payload reads some pattern judges two payloads differently. -/
theorem exists_judge_ne {f : List UInt8} {l : IpLayer} (hl : ipLayerAt f 0 = some l)
    (hreads : l.ReadsPayload f) :
    ∃ node g g', SameHeaders f g ∧ SameHeaders f g' ∧
      reqPatternJudgePktDirection (.custom node) g ≠
        reqPatternJudgePktDirection (.custom node) g' := by
  obtain ⟨hfirst, hl4, hreads⟩ := hreads
  by_cases hihl : 5 ≤ l.ihl f
  · have h4 := IpLayer.isIpv4_of_not_hasL4Header hfirst
    have hend : headersEnd f ≤ l.l4Offset f := by
      rw [headersEnd_of_layer hl, IpLayer.l4Offset, if_pos h4, if_pos h4]
      omega
    obtain ⟨hsame, hjudge⟩ := judge_patch_ports hl hfirst hl4 hend 1 (some (.port 1))
    obtain ⟨hsame', hjudge'⟩ := judge_patch_ports hl hfirst hl4 hend 2 (some (.port 1))
    refine ⟨some (.port 1), _, _, hsame, hsame', ?_⟩
    rw [hjudge, hjudge']
    exact fun heq => PktDir.noConfusion heq
  · have hinner := hreads.resolve_left hihl
    obtain ⟨hsame, hjudge⟩ :=
      judge_patch_inside hl hfirst hinner (by omega) 1 (some (.host (insideAddr 1)))
    obtain ⟨hsame', hjudge'⟩ :=
      judge_patch_inside hl hfirst hinner (by omega) 2 (some (.host (insideAddr 1)))
    refine ⟨some (.host (insideAddr 1)), _, _, hsame, hsame', ?_⟩
    rw [hjudge, hjudge']
    decide

/-- **Payload independence.** Every pattern judges all frames with the same headers the same if and
only if the packet is no later fragment whose payload is taken for ports or a frame. -/
theorem direction_ignores_payload_iff (f : List UInt8)
    (hport : ∀ l, ipLayerAt f 0 = some l → l.HasL4Header f → l.HasUdp f →
      ¬ (4700 ≤ l.dport f ∧ l.dport f < 4800)) :
    (∀ node g, SameHeaders f g →
        reqPatternJudgePktDirection (.custom node) g =
          reqPatternJudgePktDirection (.custom node) f) ↔
      ∀ l, ipLayerAt f 0 = some l → ¬ l.ReadsPayload f := by
  constructor
  · intro hsame l hl hreads
    obtain ⟨node, g, g', hg, hg', hne⟩ := exists_judge_ne hl hreads
    exact hne ((hsame node g hg).trans (hsame node g' hg').symm)
  · intro hreads node g hsame
    cases hlayer : ipLayerAt f 0 with
    | none => rw [judge_of_none hlayer, judge_of_none (hsame.ipLayerAt_eq.trans hlayer)]
    | some l =>
      exact judge_eq_of_not_readsPayload hsame hlayer (hport l hlayer) (hreads l hlayer) node

/-- A DNS query from 10.0.0.1 to 10.0.0.2 with a payload of four bytes. -/
def dnsFrame (payload : List UInt8) : List UInt8 :=
  List.replicate 12 0 ++ [0x08, 0x00] ++
    [0x45, 0, 0, 32, 0, 0, 0, 0, 64, 17, 0, 0, 10, 0, 0, 1, 10, 0, 0, 2] ++
    [0x10, 0, 0, 53, 0, 12, 0, 0] ++ payload

/-- Queries with other payloads have the same headers, and every pattern judges them the same. -/
theorem direction_ignores_payload_iff_dns :
    SameHeaders (dnsFrame [1, 2, 3, 4]) (dnsFrame [0, 0, 0, 0]) ∧
      ∀ node, reqPatternJudgePktDirection (.custom node) (dnsFrame [0, 0, 0, 0]) =
        reqPatternJudgePktDirection (.custom node) (dnsFrame [1, 2, 3, 4]) := by
  have hlayer : ipLayerAt (dnsFrame [1, 2, 3, 4]) 0 = some ⟨true, 14⟩ := by decide +kernel
  have hend : headersEnd (dnsFrame [1, 2, 3, 4]) = 34 := by decide +kernel
  have hl4 : (⟨true, 14⟩ : IpLayer).l4Offset (dnsFrame [1, 2, 3, 4]) +
      (⟨true, 14⟩ : IpLayer).l4HeaderLen (dnsFrame [1, 2, 3, 4]) = 42 := by decide +kernel
  have hagree : ∀ i < 42, (dnsFrame [0, 0, 0, 0])[i]? = (dnsFrame [1, 2, 3, 4])[i]? := by
    decide +kernel
  have hsame : SameHeaders (dnsFrame [1, 2, 3, 4]) (dnsFrame [0, 0, 0, 0]) := by
    refine ⟨rfl, fun i hi => hagree i (by omega), ?_⟩
    intro l hl _ i _ hlt
    obtain rfl := some.inj (hlayer.symm.trans hl)
    exact hagree i (by omega)
  have hdport : ¬ (4700 ≤ (⟨true, 14⟩ : IpLayer).dport (dnsFrame [1, 2, 3, 4]) ∧
      (⟨true, 14⟩ : IpLayer).dport (dnsFrame [1, 2, 3, 4]) < 4800) := by decide +kernel
  have hfirst : u16At (dnsFrame [1, 2, 3, 4]) 20 % 0x2000 = 0 := by decide +kernel
  refine ⟨hsame, fun node => (direction_ignores_payload_iff _ ?_).mpr ?_ node _ hsame⟩
  · intro l hl _ _
    obtain rfl := some.inj (hlayer.symm.trans hl)
    exact hdport
  · intro l hl hreads
    obtain rfl := some.inj (hlayer.symm.trans hl)
    exact hreads.1 fun _ => hfirst

/-- A later fragment from 10.0.0.1 to 10.0.0.2 of a UDP datagram, with a payload. -/
def laterFragment (payload : List UInt8) : List UInt8 :=
  List.replicate 12 0 ++ [0x08, 0x00] ++
    [0x45, 0, 0, 28, 0, 0, 0, 185, 64, 17, 0, 0, 10, 0, 0, 1, 10, 0, 0, 2] ++ payload

/-- Two later fragments with the same headers: `port 80` judges them by the first bytes of the
payload. -/
theorem direction_reads_fragment_payload :
    SameHeaders (laterFragment [0, 80, 0, 0, 0, 0, 0, 0]) (laterFragment [0, 0, 0, 0, 0, 0, 0, 0]) ∧
      reqPatternJudgePktDirection (.custom (some (.port 80)))
          (laterFragment [0, 80, 0, 0, 0, 0, 0, 0]) = .outgoing ∧
      reqPatternJudgePktDirection (.custom (some (.port 80)))
          (laterFragment [0, 0, 0, 0, 0, 0, 0, 0]) = .unknown := by
  have hlayer : ipLayerAt (laterFragment [0, 80, 0, 0, 0, 0, 0, 0]) 0 = some ⟨true, 14⟩ := by
    decide +kernel
  have hend : headersEnd (laterFragment [0, 80, 0, 0, 0, 0, 0, 0]) = 34 := by decide +kernel
  have hagree : ∀ i < 34, (laterFragment [0, 0, 0, 0, 0, 0, 0, 0])[i]? =
      (laterFragment [0, 80, 0, 0, 0, 0, 0, 0])[i]? := by decide +kernel
  have hlater : ¬ u16At (laterFragment [0, 80, 0, 0, 0, 0, 0, 0]) 20 % 0x2000 = 0 := by
    decide +kernel
  refine ⟨⟨rfl, fun i hi => hagree i (by omega), ?_⟩, by decide +kernel, by decide +kernel⟩
  intro l hl hfirst
  obtain rfl := some.inj (hlayer.symm.trans hl)
  exact absurd (hfirst rfl) hlater

end CloudProbe.Worker
