import CloudProbe.Worker.ParseSpec
import CloudProbe.Worker.VxlanWire

/-!
# The fragments of a frame

What `send_whole_or_split` sends for a frame. A fragment has the headers of the frame up to the
fields of `rewritten`, a piece of its payload, and lengths and a sequence number that match the
piece (`IsFragment`). `SplitInto` is about all of them; the datagrams go out in order, up to the
first that fails (`SentInOrder`).
-/

namespace CloudProbe.Worker

open Lib List

/-! ## The rewritten fields -/

/-- The bytes of the IP header that `build_fragment` rewrites. -/
def PacketParseResult.ipFields (r : PacketParseResult) (recalculateChecksum : Bool) : Set ℕ :=
  if r.isIpv4 then
    Set.Ico (r.ipOffset + 2) (r.ipOffset + 4) ∪
      if recalculateChecksum then Set.Ico (r.ipOffset + 10) (r.ipOffset + 12) else ∅
  else Set.Ico (r.ipOffset + 4) (r.ipOffset + 6)

/-- The bytes of the TCP or UDP header that `build_fragment` rewrites. -/
def PacketParseResult.l4Fields (r : PacketParseResult) (recalculateChecksum : Bool) : Set ℕ :=
  if r.isTcp then
    Set.Ico (r.l4Offset + 4) (r.l4Offset + 8) ∪
      if recalculateChecksum then Set.Ico (r.l4Offset + 16) (r.l4Offset + 18) else ∅
  else
    Set.Ico (r.l4Offset + 4) (r.l4Offset + 6) ∪
      if recalculateChecksum then Set.Ico (r.l4Offset + 6) (r.l4Offset + 8) else ∅

/-- The header bytes in which a fragment may differ from the frame: the length of the IP header, the
TCP sequence number or the UDP length, and with `recalculateChecksum` the checksums. -/
def PacketParseResult.rewritten (r : PacketParseResult) (recalculateChecksum : Bool) : Set ℕ :=
  r.ipFields recalculateChecksum ∪ r.l4Fields recalculateChecksum

section Fields

variable {r : PacketParseResult} {recalculateChecksum : Bool} {i : ℕ}

theorem mem_ipFields (h : i ∈ r.ipFields recalculateChecksum) :
    r.ipOffset + 2 ≤ i ∧ i < r.ipOffset + 6 ∨ r.ipOffset + 10 ≤ i ∧ i < r.ipOffset + 12 := by
  unfold PacketParseResult.ipFields at h
  split_ifs at h <;> simp only [Set.mem_union, Set.mem_Ico, Set.mem_empty_iff_false, or_false] at h
    <;> omega

theorem mem_l4Fields (h : i ∈ r.l4Fields recalculateChecksum) :
    r.l4Offset + 4 ≤ i ∧ i < r.l4Offset + 8 ∨
      r.isTcp = true ∧ r.l4Offset + 16 ≤ i ∧ i < r.l4Offset + 18 := by
  unfold PacketParseResult.l4Fields at h
  split_ifs at h with htcp <;>
    simp only [Set.mem_union, Set.mem_Ico, Set.mem_empty_iff_false, or_false] at h <;>
    simp only [htcp, true_and] <;> omega

theorem rewritten_subset (r : PacketParseResult) (recalculateChecksum : Bool) :
    r.rewritten recalculateChecksum ⊆ r.rewritten true := by
  cases recalculateChecksum with
  | true => exact subset_rfl
  | false =>
    simp only [PacketParseResult.rewritten, PacketParseResult.ipFields,
      PacketParseResult.l4Fields, Bool.false_eq_true, if_false, if_true, Set.union_empty]
    refine Set.union_subset_union ?_ ?_
    · split_ifs
      · exact Set.subset_union_left
      · exact subset_rfl
    · split_ifs <;> exact Set.subset_union_left

theorem not_mem_rewritten (hl4 : r.ipOffset + 12 ≤ r.l4Offset)
    (h : i < r.ipOffset + 2 ∨ r.ipOffset + 6 ≤ i ∧ i < r.ipOffset + 10 ∨
      r.ipOffset + 12 ≤ i ∧ i < r.l4Offset + 4 ∨ r.l4Offset + 8 ≤ i ∧ i < r.l4Offset + 16) :
    i ∉ r.rewritten recalculateChecksum := by
  rintro (hmem | hmem)
  · have := mem_ipFields hmem
    omega
  · have := mem_l4Fields hmem
    omega

end Fields

/-! ## Rewriting -/

section Rewriting

variable {frame f g : List UInt8} {r : PacketParseResult} {S : Set ℕ} {sse2 : Bool}
  {recalculateChecksum : Bool} {offset size : ℕ}

@[simp] theorem length_leBytes (v : UInt16) : (leBytes v).length = 2 := rfl

theorem u16At_patch {pos n : ℕ} (h : pos ≤ g.length) (hn : n < 2 ^ 16) :
    u16At (patch g pos (be 2 n)) pos = n := by
  have hslice := slice_patch (be 2 n) h
  rw [length_be] at hslice
  rw [u16At, hslice, ofBe_be]
  exact Nat.mod_eq_of_lt hn

theorem u32At_patch {pos n : ℕ} (h : pos ≤ g.length) :
    u32At (patch g pos (be 4 n)) pos = n % 2 ^ 32 := by
  have hslice := slice_patch (be 4 n) h
  rw [length_be] at hslice
  rw [u32At, hslice, ofBe_be]
  rfl

theorem eqOff_checksum {pos : ℕ} (h : EqOff S f g) (hbound : pos + 2 ≤ f.length)
    (hmem : Set.Ico pos (pos + 2) ⊆ S) (v : UInt16) :
    EqOff S f (patch (patch g pos [0, 0]) pos (leBytes v)) :=
  (h.patch (by rfl : [(0 : UInt8), 0].length = 2) hbound hmem).patch (length_leBytes v) hbound hmem

theorem updateIp_eqOff (h : EqOff S f g) (hlen : r.ipOffset + 20 ≤ f.length)
    (hS : r.ipFields recalculateChecksum ⊆ S) :
    EqOff S f (updateIp sse2 r recalculateChecksum size g) := by
  unfold PacketParseResult.ipFields at hS
  unfold updateIp
  split_ifs at hS ⊢ with h4 hcheck h6
  · obtain ⟨htotal, hsum⟩ := Set.union_subset_iff.mp hS
    exact eqOff_checksum (h.patch (length_be 2 _) (by omega) htotal) (by omega) hsum _
  · exact h.patch (length_be 2 _) (by omega) (Set.union_subset_iff.mp hS).1
  · exact h.patch (length_be 2 _) (by omega) hS
  · exact h

/-- The L4 rewrite changes its own fields only. -/
theorem updateL4_eqOff (h : EqOff S f g) (hlen : r.l4Offset + 8 ≤ f.length)
    (htcp : r.isTcp = true → r.l4Offset + 20 ≤ f.length)
    (hS : r.l4Fields recalculateChecksum ⊆ S) :
    EqOff S f (updateL4 sse2 r recalculateChecksum offset size g) := by
  unfold PacketParseResult.l4Fields at hS
  by_cases ht : r.isTcp = true
  · have hlen' := htcp ht
    simp only [updateL4, ht, if_true] at hS ⊢
    obtain ⟨hseq, hsum⟩ := Set.union_subset_iff.mp hS
    have hwritten := h.patch (length_be 4 (u32At g (r.l4Offset + 4) + offset)) (by omega) hseq
    split_ifs at hsum ⊢
    · exact eqOff_checksum hwritten (by omega) hsum _
    · exact hwritten
  · simp only [updateL4, ht, if_false, Bool.false_eq_true] at hS ⊢
    obtain ⟨hudp, hsum⟩ := Set.union_subset_iff.mp hS
    have hwritten := h.patch (length_be 2 (r.l4HdrLen + size)) (by omega) hudp
    split_ifs at hsum ⊢
    · exact eqOff_checksum hwritten (by omega) hsum _
    · exact hwritten
    all_goals exact h

theorem checksum_eqOff {pos : ℕ} (hbound : pos + 2 ≤ g.length) (v : UInt16) :
    EqOff (Set.Ico pos (pos + 2)) g (patch (patch g pos [0, 0]) pos (leBytes v)) :=
  eqOff_checksum (.refl _ g) hbound subset_rfl v

/-- The IPv4 length of a fragment. -/
theorem updateIp_totalLen (h4 : r.isIpv4 = true) (hlen : r.ipOffset + 20 ≤ g.length)
    (htotal : r.ipHdrLen + r.l4HdrLen + size < 2 ^ 16) :
    u16At (updateIp sse2 r recalculateChecksum size g) (r.ipOffset + 2) =
      r.ipHdrLen + r.l4HdrLen + size := by
  have hwritten : u16At (patch g (r.ipOffset + 2) (be 2 (r.ipHdrLen + r.l4HdrLen + size)))
      (r.ipOffset + 2) = r.ipHdrLen + r.l4HdrLen + size := u16At_patch (by omega) htotal
  have hlength : (patch g (r.ipOffset + 2) (be 2 (r.ipHdrLen + r.l4HdrLen + size))).length =
      g.length := length_patch (length_be 2 _) (by omega)
  simp only [updateIp, h4, if_true]
  split_ifs
  · -- the checksum lies behind the length
    refine (u16At_congr fun j hle hlt => (checksum_eqOff ?_ _).getElem? j ?_).trans hwritten
    · omega
    · rw [Set.mem_Ico]
      omega
  · exact hwritten

theorem updateIp_payloadLen (h4 : r.isIpv4 = false) (h6 : r.isIpv6 = true)
    (hlen : r.ipOffset + 20 ≤ g.length) (htotal : r.ipv6ExtLen + r.l4HdrLen + size < 2 ^ 16) :
    u16At (updateIp sse2 r recalculateChecksum size g) (r.ipOffset + 4) =
      r.ipv6ExtLen + r.l4HdrLen + size := by
  simp only [updateIp, h4, h6, Bool.false_eq_true, if_false, if_true]
  exact u16At_patch (by omega) htotal

/-- The sequence number of a fragment. -/
theorem updateL4_seq (ht : r.isTcp = true) (hlen : r.l4Offset + 20 ≤ g.length) :
    u32At (updateL4 sse2 r recalculateChecksum offset size g) (r.l4Offset + 4) =
      (u32At g (r.l4Offset + 4) + offset) % 2 ^ 32 := by
  have hwritten : u32At (patch g (r.l4Offset + 4) (be 4 (u32At g (r.l4Offset + 4) + offset)))
      (r.l4Offset + 4) = (u32At g (r.l4Offset + 4) + offset) % 2 ^ 32 := u32At_patch (by omega)
  have hlength : (patch g (r.l4Offset + 4) (be 4 (u32At g (r.l4Offset + 4) + offset))).length =
      g.length := length_patch (length_be 4 _) (by omega)
  simp only [updateL4, ht, if_true]
  split_ifs
  · refine (u32At_congr fun j hle hlt => (checksum_eqOff ?_ _).getElem? j ?_).trans hwritten
    · omega
    · rw [Set.mem_Ico]
      omega
  · exact hwritten

/-- The UDP length of a fragment. -/
theorem updateL4_udpLen (ht : r.isTcp = false) (hu : r.isUdp = true)
    (hlen : r.l4Offset + 8 ≤ g.length) (htotal : r.l4HdrLen + size < 2 ^ 16) :
    u16At (updateL4 sse2 r recalculateChecksum offset size g) (r.l4Offset + 4) =
      r.l4HdrLen + size := by
  have hwritten : u16At (patch g (r.l4Offset + 4) (be 2 (r.l4HdrLen + size))) (r.l4Offset + 4) =
      r.l4HdrLen + size := u16At_patch (by omega) htotal
  have hlength : (patch g (r.l4Offset + 4) (be 2 (r.l4HdrLen + size))).length = g.length :=
    length_patch (length_be 2 _) (by omega)
  simp only [updateL4, ht, hu, Bool.false_eq_true, if_false, if_true]
  split_ifs
  · refine (u16At_congr fun j hle hlt => (checksum_eqOff ?_ _).getElem? j ?_).trans hwritten
    · omega
    · rw [Set.mem_Ico]
      omega
  · exact hwritten

end Rewriting

/-! ## A fragment -/

section Fragment

variable {frame f : List UInt8} {r : PacketParseResult}

/-- **Locality of `parse_packet`.** A frame with the same headers and a length that covers what
follows them parses to the same result with the payload it has. -/
theorem Parsed.resized (h : Parsed frame r) {size : ℕ} (hlen : f.length = r.payloadOffset + size)
    (hsame : ∀ i < r.payloadOffset, i ∉ r.rewritten true → f[i]? = frame[i]?)
    (h4 : r.isIpv4 = true → u16At f (r.ipOffset + 2) = r.ipHdrLen + r.l4HdrLen + size)
    (h6 : r.isIpv4 = false → u16At f (r.ipOffset + 4) = r.ipv6ExtLen + r.l4HdrLen + size) :
    Parsed f { r with payloadLen := size } := by
  have hshape := h.shape
  have hip := hshape.ipOffset
  have hhdr := hshape.ipHdrLen
  have hl4 := hshape.l4Offset
  have hl4len := hshape.l4HdrLen
  have hpayload := hshape.payloadOffset
  simp only [etherHeaderLen] at hip
  have hkeep : ∀ i, (i < r.ipOffset + 2 ∨ r.ipOffset + 6 ≤ i ∧ i < r.ipOffset + 10 ∨
      r.ipOffset + 12 ≤ i ∧ i < r.l4Offset + 4 ∨ r.l4Offset + 8 ≤ i ∧ i < r.l4Offset + 16 ∧
        i < r.payloadOffset) → f[i]? = frame[i]? := by
    intro i hi
    exact hsame i (by omega) (not_mem_rewritten (by omega) (by omega))
  have htype : u16At f 12 = u16At frame 12 := u16At_congr fun j _ _ => hkeep j (by omega)
  refine ⟨⟨h.vlanOffset, ?_, ?_, h.payloadOffset⟩, ?_, ?_, ?_, ?_⟩
  · rcases h.ip with ⟨hv4, hv6, hip4⟩ | ⟨hv4, hv6, hip6⟩
    · have hfirst := byteAt_congr (hkeep r.ipOffset (by omega))
      have hprotocol := byteAt_congr (hkeep (r.ipOffset + 9) (by omega))
      have hfrag : u16At f (r.ipOffset + 6) = u16At frame (r.ipOffset + 6) :=
        u16At_congr fun j _ _ => hkeep j (by omega)
      refine .inl ⟨hv4, hv6, ?_⟩
      exact { hip4 with
        ipHdrLen := hfirst ▸ hip4.ipHdrLen
        unfragmented := hfrag ▸ hip4.unfragmented
        isTcp := hprotocol ▸ hip4.isTcp
        isUdp := hprotocol ▸ hip4.isUdp
        total := by simp only [h4 hv4]; omega }
    · obtain ⟨protocol, hexts, htcp, hudp⟩ := hip6.exts
      obtain ⟨exts, tail, hdrop, hextLen, hwalk⟩ := skipIpv6Exts_append hexts
      have hnext := byteAt_congr (hkeep (r.ipOffset + 6) (by omega))
      have hhdr40 := hip6.ipHdrLen
      have hdrop' := drop_eq_append (g := f) hdrop fun i _ _ => hkeep i (by omega)
      refine .inr ⟨hv4, hv6, ?_⟩
      exact { hip6 with
        exts := by
          refine ⟨protocol, ?_, htcp, hudp⟩
          simp only [hnext, hdrop']
          exact hwalk _
        total := by simp only [h6 hv4]; omega }
  · refine ⟨?_, by simp only; omega⟩
    rcases h.l4.kind with ⟨htcp, hudp, hwords, hmin⟩ | hkind
    · have hoffset := byteAt_congr (hkeep (r.l4Offset + 12) (by omega))
      exact .inl ⟨htcp, hudp, hoffset ▸ hwords, hmin⟩
    · exact .inr hkind
  · simp only [etherHeaderLen]
    omega
  · rw [htype]
    exact h.hasVlan
  · obtain ⟨tags, tail, hdrop, hoffset, hwalk⟩ := skipVlanTags_append h.tags
    simp only [etherHeaderLen] at hoffset hdrop
    rw [htype, etherHeaderLen, drop_eq_append (g := f) hdrop fun i _ _ => hkeep i (by omega)]
    exact hwalk _
  · have hdeclared : r.declaredLen f = size := by
      rw [PacketParseResult.declaredLen]
      split_ifs with hv4
      · rw [h4 hv4]
        omega
      · rw [h6 (Bool.eq_false_of_not_eq_true hv4)]
        omega
    show size = min (r.declaredLen f) (f.length - r.payloadOffset)
    omega

/-- `f` is the fragment of `frame` with the `size` payload bytes from `offset` on. -/
structure IsFragment (recalculateChecksum : Bool) (frame : List UInt8) (r : PacketParseResult)
    (offset size : ℕ) (f : List UInt8) : Prop where
  length_le : f.length ≤ frame.length
  headers : ∀ i < r.payloadOffset, i ∉ r.rewritten recalculateChecksum → f[i]? = frame[i]?
  payload : f.drop r.payloadOffset = (frame.drop (r.payloadOffset + offset)).take size
  payload_length : (f.drop r.payloadOffset).length = size
  ipv4Length : r.isIpv4 = true → u16At f (r.ipOffset + 2) = f.length - r.ipOffset
  ipv6Length : r.isIpv6 = true → u16At f (r.ipOffset + 4) = f.length - (r.ipOffset + 40)
  seq : r.isTcp = true →
    u32At f (r.l4Offset + 4) = (u32At frame (r.l4Offset + 4) + offset) % 2 ^ 32
  udpLength : r.isUdp = true → u16At f (r.l4Offset + 4) = f.length - r.l4Offset
  parses : parsePacket f = some { r with payloadLen := size }

/-- The fragment before its headers are rewritten.
Source: `packet_split.c` `build_fragment`, "Copy headers up to payload", "Copy fragment payload" -/
def rawFragment (r : PacketParseResult) (frame : List UInt8) (offset size : ℕ) : List UInt8 :=
  frame.take r.payloadOffset ++ (frame.drop (r.payloadOffset + offset)).take size

def rewriteFragment (sse2 : Bool) (r : PacketParseResult) (recalculateChecksum : Bool)
    (frame : List UInt8) (offset size : ℕ) : List UInt8 :=
  updateL4 sse2 r recalculateChecksum offset size
    (updateIp sse2 r recalculateChecksum size (rawFragment r frame offset size))

variable {offset size : ℕ}

theorem getElem?_rawFragment (hlen : r.payloadOffset ≤ frame.length) {i : ℕ}
    (hi : i < r.payloadOffset) : (rawFragment r frame offset size)[i]? = frame[i]? := by
  rw [rawFragment, List.getElem?_append_left (by rw [length_take]; omega),
    List.getElem?_take_of_lt hi]

/-- Rewriting changes the rewritten fields only. -/
theorem Shape.rewriteFragment_eqOff (h : Shape frame r) (hsize : offset + size ≤ r.payloadLen)
    (sse2 recalculateChecksum : Bool) :
    (rawFragment r frame offset size).length = r.payloadOffset + size ∧
      EqOff (r.ipFields recalculateChecksum) (rawFragment r frame offset size)
        (updateIp sse2 r recalculateChecksum size (rawFragment r frame offset size)) ∧
      EqOff (r.l4Fields recalculateChecksum)
        (updateIp sse2 r recalculateChecksum size (rawFragment r frame offset size))
        (rewriteFragment sse2 r recalculateChecksum frame offset size) := by
  obtain ⟨-, -, -, hhdr, -, -, hl4, hl4len, htcp, -, hpayload, hcaptured, -, -⟩ := h
  have hlen : (rawFragment r frame offset size).length = r.payloadOffset + size := by
    simp only [rawFragment, length_append, length_take, length_drop]
    omega
  have hip : EqOff (r.ipFields recalculateChecksum) (rawFragment r frame offset size)
      (updateIp sse2 r recalculateChecksum size (rawFragment r frame offset size)) :=
    updateIp_eqOff (.refl _ _) (by omega) subset_rfl
  have hlen' := hip.length_eq
  refine ⟨hlen, hip, updateL4_eqOff (.refl _ _) (by omega) ?_ subset_rfl⟩
  intro ht
  have := htcp ht
  omega

theorem Shape.rewriteFragment_headers (h : Shape frame r) (hsize : offset + size ≤ r.payloadLen)
    (sse2 recalculateChecksum : Bool) {i : ℕ} (hi : i < r.payloadOffset)
    (hmem : i ∉ r.rewritten recalculateChecksum) :
    (rewriteFragment sse2 r recalculateChecksum frame offset size)[i]? = frame[i]? := by
  obtain ⟨-, hip, hoff⟩ := h.rewriteFragment_eqOff hsize sse2 recalculateChecksum
  have hcaptured := h.captured
  rw [PacketParseResult.rewritten, Set.mem_union, not_or] at hmem
  rw [hoff.getElem? i hmem.2, hip.getElem? i hmem.1, getElem?_rawFragment (by omega) hi]

/-- Behind the headers there is the part of the payload. -/
theorem Shape.rewriteFragment_drop (h : Shape frame r) (hsize : offset + size ≤ r.payloadLen)
    (sse2 recalculateChecksum : Bool) :
    (rewriteFragment sse2 r recalculateChecksum frame offset size).drop r.payloadOffset =
      (frame.drop (r.payloadOffset + offset)).take size := by
  obtain ⟨-, hip, hoff⟩ := h.rewriteFragment_eqOff hsize sse2 recalculateChecksum
  obtain ⟨-, -, -, hhdr, -, -, hl4, hl4len, htcp, -, hpayload, hcaptured, -, -⟩ := h
  have hsame : (rewriteFragment sse2 r recalculateChecksum frame offset size).drop
      r.payloadOffset = (rawFragment r frame offset size).drop r.payloadOffset := by
    apply ext_getElem?
    intro i
    rw [List.getElem?_drop, List.getElem?_drop, hoff.getElem?, hip.getElem?]
    · intro hmem
      have := mem_ipFields hmem
      omega
    · intro hmem
      rcases mem_l4Fields hmem with hmem | ⟨ht, hmem⟩
      · omega
      · have := htcp ht
        omega
  rw [hsame, rawFragment, drop_left']
  rw [length_take]
  omega

theorem Shape.rewriteFragment_ipField (h : Shape frame r) (hsize : offset + size ≤ r.payloadLen)
    (sse2 recalculateChecksum : Bool) {pos : ℕ} (hpos : pos + 2 ≤ r.l4Offset) :
    u16At (rewriteFragment sse2 r recalculateChecksum frame offset size) pos =
      u16At (updateIp sse2 r recalculateChecksum size (rawFragment r frame offset size)) pos := by
  obtain ⟨-, -, hoff⟩ := h.rewriteFragment_eqOff hsize sse2 recalculateChecksum
  refine u16At_congr fun j hle hlt => hoff.getElem? j fun hmem => ?_
  have := mem_l4Fields hmem
  omega

/-- What is rewritten for an offset and a size is a fragment of the frame. -/
theorem Parsed.isFragment (h : Parsed frame r) (hsize : offset + size ≤ r.payloadLen)
    (sse2 recalculateChecksum : Bool) :
    IsFragment recalculateChecksum frame r offset size
      (rewriteFragment sse2 r recalculateChecksum frame offset size) := by
  obtain ⟨hlen, hip, hoff⟩ := h.shape.rewriteFragment_eqOff hsize sse2 recalculateChecksum
  obtain ⟨hversion, hprotocol, -, hhdr, hv6, hv4, hl4, hl4len, htcp, hudp, hpayload, hcaptured,
    htotal4, htotal⟩ := h.shape
  have hlenIp := hip.length_eq
  have hlenL4 := hoff.length_eq
  have hlength4 : r.isIpv4 = true →
      u16At (rewriteFragment sse2 r recalculateChecksum frame offset size) (r.ipOffset + 2) =
        r.ipHdrLen + r.l4HdrLen + size := by
    intro h4
    have := htotal4 h4
    rw [h.shape.rewriteFragment_ipField hsize _ _ (by omega),
      updateIp_totalLen h4 (by omega) (by omega)]
  have hlength6 : r.isIpv4 = false →
      u16At (rewriteFragment sse2 r recalculateChecksum frame offset size) (r.ipOffset + 4) =
        r.ipv6ExtLen + r.l4HdrLen + size := by
    intro h4
    rw [h.shape.rewriteFragment_ipField hsize _ _ (by omega),
      updateIp_payloadLen h4 (by rw [hversion, h4]; rfl) (by omega) (by omega)]
  refine ⟨by omega, fun i hi hmem => h.shape.rewriteFragment_headers hsize _ _ hi hmem,
    h.shape.rewriteFragment_drop hsize _ _, ?_, ?_, ?_, ?_, ?_, ?_⟩
  · rw [length_drop]
    omega
  · intro h4
    have := hv4 h4
    rw [hlength4 h4]
    omega
  · intro h6
    rw [hversion, Bool.not_eq_true'] at h6
    have := hv6 h6
    rw [hlength6 h6]
    omega
  · intro ht
    have := htcp ht
    have hseq : u32At (updateIp sse2 r recalculateChecksum size (rawFragment r frame offset size))
        (r.l4Offset + 4) = u32At frame (r.l4Offset + 4) := by
      refine u32At_congr fun j hle hlt => ?_
      rw [hip.getElem? j, getElem?_rawFragment (by omega) (by omega)]
      intro hmem
      have := mem_ipFields hmem
      omega
    rw [rewriteFragment, updateL4_seq ht (by omega), hseq]
  · intro hu
    have ht : r.isTcp = false := by rw [hprotocol, Bool.not_eq_true'] at hu; exact hu
    have := hudp ht
    rw [rewriteFragment, updateL4_udpLen ht hu (by omega) (by omega), ← rewriteFragment]
    omega
  · rw [parsePacket_eq_some_iff]
    refine h.resized (by omega) ?_ hlength4 hlength6
    intro i hi hmem
    exact h.shape.rewriteFragment_headers hsize _ _ hi
      fun hin => hmem (rewritten_subset r recalculateChecksum hin)

end Fragment

/-! ## All fragments -/

/-- The frames that stand for a frame: the frame itself, or its fragments. -/
def splitFrames (sse2 recalculateChecksum : Bool) (maxPayloadSize : ℕ) (frame : List UInt8) :
    List (List UInt8) :=
  match parsePacket frame with
  | none => [frame]
  | some r =>
    if r.payloadLen ≤ maxPayloadSize then [frame]
    else (List.range ((r.payloadLen + maxPayloadSize - 1) / maxPayloadSize)).map fun i =>
      rewriteFragment sse2 r recalculateChecksum frame (i * maxPayloadSize)
        (min maxPayloadSize (r.payloadLen - i * maxPayloadSize))

/-- `frames` are the fragments of `frame`, with at most `maxPayloadSize` bytes of payload each. -/
structure SplitInto (recalculateChecksum : Bool) (maxPayloadSize : ℕ) (frame : List UInt8)
    (r : PacketParseResult) (frames : List (List UInt8)) : Prop where
  count : frames.length = (r.payloadLen + maxPayloadSize - 1) / maxPayloadSize
  several : 1 < frames.length
  /-- the size of the last one is not zero and not too large -/
  last_pos : (frames.length - 1) * maxPayloadSize < r.payloadLen
  last_le : r.payloadLen ≤ frames.length * maxPayloadSize
  fragments : ∀ i f, frames[i]? = some f →
    IsFragment recalculateChecksum frame r (i * maxPayloadSize)
      (if i + 1 < frames.length then maxPayloadSize else r.payloadLen - i * maxPayloadSize) f
  payload : (frames.map (List.drop r.payloadOffset)).flatten =
    (frame.drop r.payloadOffset).take r.payloadLen

section Split

variable {frame : List UInt8} {r : PacketParseResult} {len max : ℕ}

theorem mul_lt_of_lt_count (hmax : 0 < max) {i : ℕ} (hi : i < (len + max - 1) / max) :
    i * max < len := by
  have hle : (i + 1) * max ≤ len + max - 1 :=
    (Nat.mul_le_mul_right max hi).trans (Nat.div_mul_le_self _ _)
  rw [Nat.add_mul, Nat.one_mul] at hle
  omega

theorem le_count_mul (hmax : 0 < max) : len ≤ (len + max - 1) / max * max := by
  have hdiv := Nat.div_add_mod (len + max - 1) max
  have hmod := Nat.mod_lt (len + max - 1) hmax
  rw [Nat.mul_comm] at hdiv
  omega

/-- What `build_fragment` puts together. -/
theorem buildFragment_eq {data : List UInt8} {frameLen i : ℕ} (h : Parsed (data.take frameLen) r)
    (hmax : 0 < max) (hi : i * max < r.payloadLen) (sse2 recalculateChecksum : Bool) :
    buildFragment sse2 r data i max recalculateChecksum =
      some (rewriteFragment sse2 r recalculateChecksum (data.take frameLen) (i * max)
        (min max (r.payloadLen - i * max))) := by
  have hcaptured := h.shape.captured
  rw [length_take] at hcaptured
  have hsize : (if max < r.payloadLen - i * max then max else r.payloadLen - i * max) =
      min max (r.payloadLen - i * max) := by
    split_ifs <;> omega
  obtain ⟨size, hdef⟩ : ∃ size, size = min max (r.payloadLen - i * max) := ⟨_, rfl⟩
  have hheaders : (data.take frameLen).take r.payloadOffset = data.take r.payloadOffset := by
    rw [take_take, Nat.min_eq_left (by omega)]
  have hpiece : ((data.take frameLen).drop (r.payloadOffset + i * max)).take size =
      (data.drop (r.payloadOffset + i * max)).take size := by
    rw [drop_take, take_take, Nat.min_eq_left (by omega)]
  have hne : size ≠ 0 := by omega
  simp only [buildFragment, hsize, ← hdef, hne, if_false, rewriteFragment, rawFragment, hheaders,
    hpiece]

theorem Parsed.buildFragment (h : Parsed frame r) (hmax : 0 < max) {i : ℕ}
    (hi : i * max < r.payloadLen) (sse2 recalculateChecksum : Bool) :
    buildFragment sse2 r frame i max recalculateChecksum =
      some (rewriteFragment sse2 r recalculateChecksum frame (i * max)
        (min max (r.payloadLen - i * max))) := by
  have hself : Parsed (frame.take frame.length) r := by rwa [take_length]
  have hbuilt := buildFragment_eq hself hmax hi sse2 recalculateChecksum
  rwa [take_length] at hbuilt

theorem calculateFragmentCount_of_lt (hcount : 1 < calculateFragmentCount r max) :
    0 < max ∧ max < r.payloadLen ∧
      calculateFragmentCount r max = (r.payloadLen + max - 1) / max := by
  rw [calculateFragmentCount] at hcount ⊢
  split_ifs at hcount ⊢ with hwhole
  all_goals omega

theorem splitFrames_of_length_le (sse2 recalculateChecksum : Bool) (hlen : frame.length ≤ max) :
    splitFrames sse2 recalculateChecksum max frame = [frame] := by
  unfold splitFrames
  cases hparse : parsePacket frame with
  | none => rfl
  | some r =>
    have hcaptured := ((parsePacket_eq_some_iff frame r).mp hparse).shape.captured
    exact if_pos (by omega)

/-- A frame that is split goes out as its fragments. -/
theorem Parsed.splitInto (h : Parsed frame r) (hmax : 0 < max) (hlen : max < r.payloadLen)
    (sse2 recalculateChecksum : Bool) :
    SplitInto recalculateChecksum max frame r (splitFrames sse2 recalculateChecksum max frame) := by
  obtain ⟨n, hn⟩ : ∃ n, n = (r.payloadLen + max - 1) / max := ⟨_, rfl⟩
  have hstart : ∀ i < n, i * max < r.payloadLen := fun i hi => mul_lt_of_lt_count hmax (hn ▸ hi)
  have hcover : r.payloadLen ≤ n * max := hn ▸ le_count_mul hmax
  have hframes : splitFrames sse2 recalculateChecksum max frame =
      (List.range n).map fun i => rewriteFragment sse2 r recalculateChecksum frame (i * max)
        (min max (r.payloadLen - i * max)) := by
    rw [splitFrames, (parsePacket_eq_some_iff frame r).mpr h]
    simp only [hn, Nat.not_le.mpr hlen, if_false]
  have hcount : (splitFrames sse2 recalculateChecksum max frame).length = n := by
    rw [hframes, length_map, length_range]
  have hfragment : ∀ i < n, IsFragment recalculateChecksum frame r (i * max)
      (min max (r.payloadLen - i * max)) (rewriteFragment sse2 r recalculateChecksum frame (i * max)
        (min max (r.payloadLen - i * max))) := by
    intro i hi
    have := hstart i hi
    exact h.isFragment (by omega) sse2 recalculateChecksum
  have hseveral : 1 < n := by
    by_contra hone
    have := Nat.mul_le_mul_right max (Nat.le_of_not_lt hone)
    omega
  refine ⟨hcount.trans hn, hcount ▸ hseveral, hcount ▸ hstart (n - 1) (by omega), hcount ▸ hcover,
    ?_, ?_⟩
  · intro i f hf
    rw [hframes, List.getElem?_map, Option.map_eq_some_iff] at hf
    obtain ⟨j, hj, rfl⟩ := hf
    obtain ⟨hi, hij⟩ := List.getElem?_eq_some_iff.mp hj
    rw [length_range] at hi
    rw [getElem_range] at hij
    subst hij
    have hsize : (if i + 1 < (splitFrames sse2 recalculateChecksum max frame).length then max
        else r.payloadLen - i * max) = min max (r.payloadLen - i * max) := by
      have hnext : (i + 1) * max = i * max + max := by rw [Nat.add_mul, Nat.one_mul]
      rw [hcount]
      split_ifs with hlt
      · have := hstart (i + 1) hlt
        omega
      · obtain rfl : n = i + 1 := by omega
        omega
    rw [hsize]
    exact hfragment i hi
  · have hpiece : ∀ i < n, (rewriteFragment sse2 r recalculateChecksum frame (i * max)
        (min max (r.payloadLen - i * max))).drop r.payloadOffset =
        (((frame.drop r.payloadOffset).take r.payloadLen).drop (i * max)).take max := by
      intro i hi
      rw [(hfragment i hi).payload, drop_take, take_take, drop_drop]
    rw [hframes, map_map, ← flatMap_def]
    calc (List.range n).flatMap (List.drop r.payloadOffset ∘ fun i =>
          rewriteFragment sse2 r recalculateChecksum frame (i * max)
            (min max (r.payloadLen - i * max)))
        = (List.range n).flatMap fun i =>
            (((frame.drop r.payloadOffset).take r.payloadLen).drop (i * max)).take max :=
          flatMap_congr fun i hi => hpiece i (mem_range.mp hi)
      _ = ((frame.drop r.payloadOffset).take r.payloadLen).take (n * max) := flatMap_pieces _ _ _
      _ = (frame.drop r.payloadOffset).take r.payloadLen := by
          rw [take_take, Nat.min_eq_right hcover]

end Split

/-! ## Sending -/

theorem datagrams_carry (o : VxlanOutput) (ts : Timeval) (direct : PktDir)
    (frames : List (List UInt8)) :
    List.Forall₂ (fun datagram frame => ∃ hdr : List UInt8, hdr.length = 8 ∧
      datagram = hdr ++ (frame ++ captureTrailer o.captureTime ts))
      (o.datagrams ts direct frames) frames := by
  induction frames generalizing o with
  | nil => exact .nil
  | cons frame frames ih =>
    refine .cons ⟨_, ?_, o.datagram_eq ts frame direct⟩
      (ih { o with area := o.fill ts frame })
    simp only [length_append, vxlanVni, paTag]
    split_ifs <;> simp [vxlanFlags]

/-- **Splitting.** `send_whole_or_split` sends the frames of `splitFrames`, which has no fast path.
-/
theorem sendWholeOrSplit_eq_sendFrames (env : Env) (o : VxlanOutput) (h : Handed) (frameLen : ℕ)
    (hmax : o.maxPayloadSize ≠ 0) :
    sendWholeOrSplit env o h frameLen =
      sendFrames env h.packet.hdr.ts h.direct
        (splitFrames env.sse2 o.recalculateChecksum o.maxPayloadSize.toNat
          (h.packet.data.take frameLen)) o := by
  obtain ⟨frame, hframe⟩ : ∃ frame, frame = h.packet.data.take frameLen := ⟨_, rfl⟩
  obtain ⟨max, hsize⟩ : ∃ max, max = o.maxPayloadSize.toNat := ⟨_, rfl⟩
  have hpos : 0 < max := by
    rw [hsize]
    exact Nat.pos_of_ne_zero fun hzero => hmax (UInt16.toNat_inj.mp hzero)
  simp only [sendWholeOrSplit, hmax, false_or, ← hframe, ← hsize]
  split_ifs with hfast
  · have hle : frame.length ≤ max := by
      rw [hframe, length_take]
      omega
    rw [splitFrames_of_length_le _ _ hle, sendFrames_singleton]
  · cases hparse : parsePacket frame with
    | none => simp only [splitFrames, hparse, sendFrames_singleton]
    | some r =>
      have hparsed := (parsePacket_eq_some_iff frame r).mp hparse
      simp only [splitFrames, hparse, calculateFragmentCount, hpos.ne', false_or]
      by_cases hwhole : r.payloadLen ≤ max
      · simp only [hwhole, if_true, sendFrames_singleton]
      · have hsplit := hparsed.splitInto hpos (Nat.lt_of_not_le hwhole) env.sse2
          o.recalculateChecksum
        have hone : (r.payloadLen + max - 1) / max ≠ 1 := hsplit.count ▸ hsplit.several.ne'
        simp only [hwhole, hone, if_false]
        rw [sendFragments_eq]
        · rw [← range_eq_range', ← hsize]
          congr 1
          rw [← filterMap_eq_map]
          apply filterMap_congr
          intro i hi
          rw [hframe] at hparsed ⊢
          exact buildFragment_eq hparsed hpos (mul_lt_of_lt_count hpos (mem_range.mp hi)) _ _
        · intro j hj
          rw [← hsize, Option.isSome_iff_exists]
          rw [Nat.zero_add] at hj
          rw [hframe] at hparsed
          exact ⟨_, buildFragment_eq hparsed hpos (mul_lt_of_lt_count hpos hj) _ _⟩

/-- **Split round trip.** The datagrams of `frames` are sent in order up to the first that fails:
the frame as it is when it is not parsed or small, its fragments otherwise. -/
theorem split_round_trip (env : Env) (o : VxlanOutput) (h : Handed) (frameLen : ℕ)
    (hmax : o.maxPayloadSize ≠ 0) :
    let frame := h.packet.data.take frameLen
    let max := o.maxPayloadSize.toNat
    let frames := splitFrames env.sse2 o.recalculateChecksum max frame
    let datagrams := o.datagrams h.packet.hdr.ts h.direct frames
    SentInOrder env o datagrams (sendWholeOrSplit env o h frameLen) ∧
      List.Forall₂ (fun datagram frame => ∃ hdr : List UInt8, hdr.length = 8 ∧
        datagram = hdr ++ (frame ++ captureTrailer o.captureTime h.packet.hdr.ts))
        datagrams frames ∧
      (parsePacket frame = none → frames = [frame]) ∧
      ∀ r, parsePacket frame = some r →
        (r.payloadLen ≤ max → frames = [frame]) ∧
        (max < r.payloadLen → SplitInto o.recalculateChecksum max frame r frames) := by
  intro frame max frames datagrams
  have hpos : 0 < max := Nat.pos_of_ne_zero fun hzero => hmax (UInt16.toNat_inj.mp hzero)
  refine ⟨?_, datagrams_carry o _ _ frames, ?_, ?_⟩
  · rw [sendWholeOrSplit_eq_sendFrames env o h frameLen hmax]
    exact sendFrames_inOrder env _ _ frames o
  · intro hparse
    simp only [frames, splitFrames, hparse]
  · intro r hparse
    refine ⟨?_, ?_⟩
    · intro hle
      simp only [frames, splitFrames, hparse, hle, if_true]
    · intro hlt
      exact ((parsePacket_eq_some_iff frame r).mp hparse).splitInto hpos hlt _ _

/-- A UDP datagram over IPv4 with three bytes of payload. -/
def udpFrame : List UInt8 :=
  List.replicate 12 0 ++ [0x08, 0x00] ++
    [0x45, 0, 0, 31, 0, 0, 0, 0, 64, 17, 0, 0, 10, 0, 0, 1, 10, 0, 0, 2] ++
    [0x10, 0, 0x20, 0, 0, 11, 0, 0] ++ [1, 2, 3]

theorem parsePacket_udpFrame :
    parsePacket udpFrame =
      some ⟨true, false, false, true, false, 0, 14, 34, 42, 20, 0, 8, 3⟩ := by
  decide +kernel

/-- It is split into two fragments, of two bytes and of one, and both are sent. -/
theorem split_round_trip_udp :
    let env : Env := ⟨fun _ => true, fun _ => ⟨0, 0⟩, ([.sent 52, .sent 51].getD · .error),
      fun _ => 0, fun _ => true, true⟩
    let o := vxlanOutputNew ⟨false, 1, 7, 0, 0, 2, true⟩ .zero
    let h : Handed := ⟨⟨⟨⟨1, 0⟩, 45, 45⟩, udpFrame, rfl⟩, .noncheck⟩
    o.maxPayloadSize ≠ 0 ∧ ∃ r, parsePacket udpFrame = some r ∧ r.payloadLen = 3 ∧
      SplitInto true 2 udpFrame r (splitFrames true true 2 udpFrame) ∧
      SentInOrder env o (o.datagrams ⟨1, 0⟩ .noncheck (splitFrames true true 2 udpFrame))
        (sendWholeOrSplit env o h 45) ∧
      (sendWholeOrSplit env o h 45).2 = true ∧
      (fullySent (sendWholeOrSplit env o h 45).1.log).length = 2 := by
  intro env o h
  have hmax : o.maxPayloadSize ≠ 0 := by decide
  have hframe : h.packet.data.take 45 = udpFrame := take_of_length_le (by decide)
  have hround := split_round_trip env o h 45 hmax
  simp only [hframe] at hround
  obtain ⟨hsent, -, -, hsplit⟩ := hround
  exact ⟨hmax, _, parsePacket_udpFrame, rfl, (hsplit _ parsePacket_udpFrame).2 (by decide), hsent,
    by decide +kernel, by decide +kernel⟩

theorem splitFrames_of_le {frame : List UInt8} {max : ℕ}
    (h : ∀ r, parsePacket frame = some r → r.payloadLen ≤ max) (sse2 recalculateChecksum : Bool) :
    splitFrames sse2 recalculateChecksum max frame = [frame] := by
  unfold splitFrames
  rcases hparse : parsePacket frame with _ | r
  · rfl
  · exact if_pos (h r hparse)

/-- **A second splitter changes nothing** when it has the same or a larger size. -/
theorem splitFrames_again {max more : ℕ} (hmax : 0 < max) (hmore : max ≤ more)
    (sse2 sse2' recalculateChecksum recalculateChecksum' : Bool) (frame : List UInt8) :
    (splitFrames sse2 recalculateChecksum max frame).flatMap
        (splitFrames sse2' recalculateChecksum' more) =
      splitFrames sse2 recalculateChecksum max frame := by
  suffices h : ∀ f ∈ splitFrames sse2 recalculateChecksum max frame,
      splitFrames sse2' recalculateChecksum' more f = [f] by
    rw [flatMap_congr h, flatMap_singleton']
  intro f hf
  apply splitFrames_of_le
  intro r' hr'
  by_cases hwhole : ∀ r, parsePacket frame = some r → r.payloadLen ≤ max
  · rw [splitFrames_of_le hwhole, mem_singleton] at hf
    subst hf
    exact (hwhole r' hr').trans hmore
  · simp only [not_forall, not_le] at hwhole
    obtain ⟨r, hr, hlong⟩ := hwhole
    have hsplit := ((parsePacket_eq_some_iff frame r).mp hr).splitInto hmax hlong sse2
      recalculateChecksum
    obtain ⟨i, hi⟩ := mem_iff_getElem?.mp hf
    have hparses := (hsplit.fragments i f hi).parses
    obtain rfl := Option.some.inj (hr'.symm.trans hparses)
    have hlast := hsplit.last_le
    have hlt := (List.getElem?_eq_some_iff.mp hi).1
    dsimp only
    split_ifs with hmid
    · exact hmore
    · have hn : (splitFrames sse2 recalculateChecksum max frame).length = i + 1 := by omega
      rw [hn, Nat.add_mul, Nat.one_mul] at hlast
      omega

theorem splitFrames_again_udp :
    (splitFrames true true 2 udpFrame).flatMap (splitFrames false false 2) =
      splitFrames true true 2 udpFrame :=
  splitFrames_again (by decide) (le_refl 2) true false true false udpFrame

end CloudProbe.Worker
