import CloudProbe.Lib.OnesComplement
import CloudProbe.Worker.SplitFrames

/-!
# The checksums of the fragments verify

With and without SSE2 the checksum core adds up the words of the host, and what `cksum_finish`
returns completes the sum to a multiple of 65535 (`dvd_cksumFinish`). A checksum is filled into a
field that was zero while the sum was taken (`dvd_filled`).
-/

namespace CloudProbe.Worker

open Lib List

/-! ## The checksum core -/

theorem leWord_eq (lo hi : UInt8) : leWord lo hi = UInt32.ofNat (leSum [lo, hi]) := rfl

theorem cksumScalar_eq (sum : UInt32) (buf : List UInt8) :
    cksumScalar sum buf = sum + UInt32.ofNat (leSum buf) := by
  fun_induction cksumScalar sum buf with
  | case1 => simp [leSum]
  | case2 sum b =>
    rw [leSum]
    congr 1
    apply UInt32.toNat_inj.mp
    have := b.toNat_lt
    simp only [UInt8.toNat_toUInt32, UInt32.toNat_ofNat']
    omega
  | case3 sum lo hi rest ih =>
    rw [ih, leWord, leSum, UInt32.ofNat_add (lo.toNat + 256 * hi.toNat), UInt32.add_assoc]

theorem take_drop_pair {buf : List UInt8} {i : ℕ} (h : 2 * i + 2 ≤ buf.length) :
    (buf.drop (2 * i)).take 2 = [buf.getD (2 * i) 0, buf.getD (2 * i + 1) 0] := by
  rw [drop_eq_getElem_cons (by omega), drop_eq_getElem_cons (by omega)]
  simp only [take_succ_cons, take_zero, getD_eq_getElem?_getD]
  rw [List.getElem?_eq_getElem (by omega), List.getElem?_eq_getElem (by omega)]
  rfl

theorem wordSum_eq (buf : List UInt8) (first count : ℕ) (h : 2 * (first + count) ≤ buf.length) :
    wordSum buf first count =
      UInt32.ofNat (leSum ((buf.drop (2 * first)).take (2 * count))) := by
  induction count with
  | zero => simp [wordSum, leSum]
  | succ count ih =>
    rw [wordSum, range_succ, foldl_append, foldl_cons, foldl_nil, ← wordSum,
      ih (by omega), Nat.mul_add, leSum_take_add (even_two_mul count), UInt32.ofNat_add,
      drop_drop, ← Nat.mul_add, take_drop_pair (by omega), wordAt, leWord_eq]
    rw [length_drop]
    omega

/-- **The loop lemma** of the vector core. -/
theorem cksumSse2_eq (n : ℕ) (v : Lanes) (buf : List UInt8) (h : 32 * n ≤ buf.length) :
    (cksumSse2 n v buf).reduce = v.reduce + UInt32.ofNat (leSum (buf.take (32 * n))) := by
  induction n generalizing v buf with
  | zero => simp [cksumSse2, leSum]
  | succ n ih =>
    have hblock : ∀ v : Lanes,
        (((v.addWords buf 0).addWords buf 4 |>.addWords buf 8).addWords buf 12).reduce =
          v.reduce + wordSum buf 0 16 := by
      intro v
      simp only [Lanes.reduce, Lanes.addWords, wordSum, range_succ, range_zero,
        nil_append, foldl_append, foldl_cons, foldl_nil, Nat.zero_add,
        Nat.reduceAdd, UInt32.zero_add]
      ac_rfl
    have hlen : 32 * n ≤ (buf.drop 32).length := by
      rw [length_drop]
      omega
    rw [cksumSse2, ih _ _ hlen, hblock, wordSum_eq _ _ _ (by omega), UInt32.add_assoc,
      ← UInt32.ofNat_add, Nat.mul_add, Nat.add_comm (32 * n),
      leSum_take_add (by decide) (by omega)]
    rfl

variable {n : ℕ} (sse2 : Bool)

theorem cksumAccumulate_eq (buf : List UInt8) (initialSum : UInt32) :
    cksumAccumulate sse2 buf initialSum = initialSum + UInt32.ofNat (leSum buf) := by
  rw [cksumAccumulate]
  split_ifs
  · obtain ⟨blocks, hblocks⟩ : ∃ blocks, blocks = buf.length / 32 := ⟨_, rfl⟩
    have hle : 32 * blocks ≤ buf.length := by omega
    have hzero : Lanes.reduce ⟨0, 0, 0, 0⟩ = 0 := rfl
    rw [← hblocks, cksumScalar_eq, cksumSse2_eq _ _ _ hle, hzero, UInt32.zero_add,
      leSum_split ⟨16 * blocks, by omega⟩ hle, UInt32.ofNat_add, UInt32.add_assoc]
  · exact cksumScalar_eq initialSum buf

theorem toNat_cksumFold (sum : UInt32) : (cksumFold sum).toNat = foldTwice sum.toNat := by
  have hle := (foldTwice_spec sum.toNat_lt).1
  simp only [foldTwice] at hle ⊢
  simp only [cksumFold, UInt32.toNat_toUInt16, toNat_foldStep]
  omega

theorem dvd_cksumFinish (sum : UInt32) : 65535 ∣ sum.toNat + (cksumFinish sum).toNat := by
  obtain ⟨hle, hmod⟩ := foldTwice_spec sum.toNat_lt
  rw [cksumFinish, UInt16.toNat_not, toNat_cksumFold, UInt16.size]
  unfold Nat.ModEq at hmod
  omega

theorem leSum_leBytes (v : UInt16) : leSum (leBytes v) = v.toNat := by
  have := v.toNat_lt
  simp only [leBytes, leSum, UInt8.toNat_ofNat']
  omega

/-- **A checksum that is filled in** adds itself to the sum of a window that holds it at an even
place. -/
theorem leSum_filled {g : List UInt8} {start pos : ℕ} (hstart : start ≤ pos)
    (heven : Even (pos - start)) (hend : pos + 2 ≤ start + n) (hlen : pos + 2 ≤ g.length)
    (v : UInt16) :
    leSum (((patch (patch g pos [0, 0]) pos (leBytes v)).drop start).take n) =
      leSum (((patch g pos [0, 0]).drop start).take n) + v.toNat := by
  have hzeroed : (patch g pos [0, 0]).length = g.length := length_patch rfl hlen
  have hwrite : EqOff (Set.Ico pos (pos + 2)) (patch g pos [0, 0])
      (patch (patch g pos [0, 0]) pos (leBytes v)) :=
    (EqOff.refl _ _).patch (length_leBytes v) (by rw [hzeroed]; exact hlen) subset_rfl
  have hfield := leSum_field hwrite hstart heven hend (by rw [hzeroed]; exact hlen)
  have hzero : ((patch g pos [0, 0]).drop pos).take 2 = [0, 0] := slice_patch [0, 0] (by omega)
  have hfull : ((patch (patch g pos [0, 0]) pos (leBytes v)).drop pos).take 2 = leBytes v :=
    slice_patch (leBytes v) (by omega)
  rw [hzero, hfull, leSum_leBytes] at hfield
  exact hfield

/-! ## Headers and segments -/

/-- **The IPv4 header checksum** is that of the words of the header, on both paths. -/
theorem calculateIpChecksum_eq {hdr : List UInt8} (hihl : n = (hdr.getD 0 0).toNat % 16 * 4)
    (hlen : n ≤ hdr.length) :
    calculateIpChecksum sse2 hdr = cksumFinish (UInt32.ofNat (leSum (hdr.take n))) := by
  simp only [calculateIpChecksum]
  split_ifs with hfive
  · have hwords : wordAt hdr 0 + wordAt hdr 1 + wordAt hdr 2 + wordAt hdr 3 + wordAt hdr 4 +
        wordAt hdr 5 + wordAt hdr 6 + wordAt hdr 7 + wordAt hdr 8 + wordAt hdr 9 =
        wordSum hdr 0 10 := by
      simp [wordSum, range_succ]
    obtain rfl : n = 20 := by omega
    rw [hwords, wordSum_eq hdr 0 10 (by omega)]
    rfl
  · rw [cksumAccumulate_eq, UInt32.zero_add, ← hihl]

/-- The pseudo header a receiver puts in front of a segment: the addresses of the IP header, the
protocol and the length of the segment. -/
def pseudoHeader (ip : IpHdr) (protocol l4Len : ℕ) : List UInt8 :=
  match ip with
  | .v4 hdr => (hdr.drop 12).take 8 ++ [0, UInt8.ofNat protocol] ++ be 2 l4Len
  | .v6 hdr => (hdr.drop 8).take 32 ++ be 4 l4Len ++ [0, 0, 0, UInt8.ofNat protocol]

/-- The header is long enough to hold its addresses. -/
def IpHdr.Whole : IpHdr → Prop
  | .v4 hdr => 20 ≤ hdr.length
  | .v6 hdr => 40 ≤ hdr.length

theorem htons_eq (hn : n < 2 ^ 16) :
    htons n = UInt32.ofNat (leSum (be 2 n)) ∧ htons n = UInt32.ofNat (leSum (be 4 n)) := by
  have hsum : leSum (be 2 n) = n / 256 % 256 + 256 * (n % 256) := by
    simp [be, leSum]
  have hsum' : leSum (be 4 n) = n / 256 % 256 + 256 * (n % 256) := by
    simp [be, leSum]
    omega
  rw [hsum, hsum', htons]
  exact ⟨rfl, rfl⟩

/-- The sum over the pseudo header is that of its words. -/
theorem calculatePseudoHeaderSum_eq {ip : IpHdr} (hip : ip.Whole) {protocol l4Len : ℕ}
    (hprotocol : protocol < 256) (hlen : l4Len < 2 ^ 16) :
    calculatePseudoHeaderSum ip protocol l4Len =
        UInt32.ofNat (leSum (pseudoHeader ip protocol l4Len)) ∧
      Even (pseudoHeader ip protocol l4Len).length ∧
      (pseudoHeader ip protocol l4Len).length ≤ 40 := by
  have hproto : htons protocol = UInt32.ofNat (256 * protocol) := by
    rw [htons, Nat.div_eq_of_lt hprotocol, Nat.mod_eq_of_lt hprotocol, Nat.zero_mod, Nat.zero_add]
  have hbyte : (UInt8.ofNat protocol).toNat = protocol := by
    rw [UInt8.toNat_ofNat', Nat.mod_eq_of_lt hprotocol]
  cases ip with
  | v4 hdr =>
    have haddr : ((hdr.drop 12).take 8).length = 8 := by
      have : 20 ≤ hdr.length := hip
      rw [length_take, length_drop]
      omega
    have hlength : (pseudoHeader (.v4 hdr) protocol l4Len).length = 12 := by
      simp [pseudoHeader, haddr]
    have htail : leSum [0, UInt8.ofNat protocol] = 256 * protocol := by
      simp only [leSum, hbyte, UInt8.toNat_zero]
      omega
    refine ⟨?_, ?_, ?_⟩
    · rw [calculatePseudoHeaderSum, pseudoHeader, wordSum_eq hdr 6 4 hip, hproto,
        (htons_eq hlen).1, leSum_append, leSum_append, UInt32.ofNat_add, UInt32.ofNat_add, htail]
      · rw [haddr]
        decide
      · rw [length_append, haddr]
        exact ⟨5, rfl⟩
    · rw [hlength]
      decide
    · omega
  | v6 hdr =>
    have haddr : ((hdr.drop 8).take 32).length = 32 := by
      have : 40 ≤ hdr.length := hip
      rw [length_take, length_drop]
      omega
    have hlength : (pseudoHeader (.v6 hdr) protocol l4Len).length = 40 := by
      simp [pseudoHeader, haddr]
    have htail : leSum [0, 0, 0, UInt8.ofNat protocol] = 256 * protocol := by
      simp only [leSum, hbyte, UInt8.toNat_zero]
      omega
    refine ⟨?_, ?_, ?_⟩
    · rw [calculatePseudoHeaderSum, pseudoHeader, wordSum_eq hdr 4 16 hip, hproto,
        (htons_eq hlen).2, leSum_append, leSum_append, UInt32.ofNat_add, UInt32.ofNat_add, htail]
      · rw [haddr]
        decide
      · rw [length_append, haddr, length_be]
        decide
    · rw [hlength]
      decide
    · omega

theorem dvd_calculateIpChecksum {hdr : List UInt8} (hihl : n = (hdr.getD 0 0).toNat % 16 * 4)
    (hlen : n ≤ hdr.length) :
    65535 ∣ leSum (hdr.take n) + (calculateIpChecksum sse2 hdr).toNat := by
  have hbound := leSum_le (hdr.take n)
  have hdvd := dvd_cksumFinish (UInt32.ofNat (leSum (hdr.take n)))
  rw [length_take] at hbound
  rw [UInt32.toNat_ofNat_of_lt' (by rw [UInt32.size]; omega)] at hdvd
  rwa [calculateIpChecksum_eq sse2 hihl hlen]

/-- Checksum and segment add up to a multiple of 65535. -/
theorem dvd_calculateL4Checksum {ip : IpHdr} (hip : ip.Whole) {protocol : ℕ}
    (hprotocol : protocol < 256) {segment : List UInt8} (hlen : segment.length < 2 ^ 16) :
    65535 ∣ leSum (pseudoHeader ip protocol segment.length ++ segment) +
      (calculateL4Checksum sse2 protocol ip segment).toNat := by
  obtain ⟨hsum, heven, hshort⟩ := calculatePseudoHeaderSum_eq hip hprotocol hlen
  have hbound := leSum_le (pseudoHeader ip protocol segment.length ++ segment)
  rw [length_append] at hbound
  have hdvd := dvd_cksumFinish
    (UInt32.ofNat (leSum (pseudoHeader ip protocol segment.length ++ segment)))
  rw [UInt32.toNat_ofNat_of_lt' (by rw [UInt32.size]; omega)] at hdvd
  rwa [calculateL4Checksum, cksumAccumulate_eq, hsum, ← UInt32.ofNat_add, ← leSum_append heven]

/-! ## Fragments -/

section Fragments

variable {r : PacketParseResult}

variable {f g z : List UInt8}

theorem pseudoHeader_congr
    (h : ∀ i, r.ipOffset ≤ i → i < r.ipOffset + (if r.isIpv4 then 20 else 40) → g[i]? = f[i]?)
    (protocol l4Len : ℕ) :
    pseudoHeader (r.ipHdr g) protocol l4Len = pseudoHeader (r.ipHdr f) protocol l4Len := by
  unfold PacketParseResult.ipHdr
  split_ifs at h ⊢
  · have hslice : (g.drop (r.ipOffset + 12)).take 8 = (f.drop (r.ipOffset + 12)).take 8 :=
      slice_congr fun i hle hlt => h i (by omega) (by omega)
    simp only [pseudoHeader, drop_drop, hslice]
  · have hslice : (g.drop (r.ipOffset + 8)).take 32 = (f.drop (r.ipOffset + 8)).take 32 :=
      slice_congr fun i hle hlt => h i (by omega) (by omega)
    simp only [pseudoHeader, drop_drop, hslice]

theorem mem_pseudoHeader (ip : IpHdr) (protocol l4Len : ℕ) :
    UInt8.ofNat protocol ∈ pseudoHeader ip protocol l4Len := by
  cases ip <;> simp [pseudoHeader]

/-- **A segment whose checksum is filled in** verifies; `z` has zero in the field at `pos`. -/
theorem onesSum_filled {pos protocol : ℕ} {v : UInt16} (hz : z = patch g pos [0, 0])
    (hf : f = patch z pos (leBytes v)) (hip : (r.ipHdr z).Whole)
    (hheader : r.ipOffset + (if r.isIpv4 then 20 else 40) ≤ pos) (hpos : r.l4Offset ≤ pos)
    (heven : Even (pos - r.l4Offset)) (hend : pos + 2 ≤ g.length)
    (hlen : g.length - r.l4Offset < 2 ^ 16) (hprotocol : protocol < 256) (hproto : protocol ≠ 0)
    (hv : 65535 ∣ leSum (pseudoHeader (r.ipHdr z) protocol (z.length - r.l4Offset) ++
      z.drop r.l4Offset) + v.toNat) :
    onesSum (pseudoHeader (r.ipHdr f) protocol (f.length - r.l4Offset) ++ f.drop r.l4Offset) =
      0xFFFF := by
  have hzlen : z.length = g.length := by rw [hz]; exact length_patch rfl hend
  have hflen : f.length = g.length := by
    rw [hf, length_patch (length_leBytes v) (by omega), hzlen]
  have hwrite : EqOff (Set.Ico pos (pos + 2)) z f := by
    rw [hf]
    exact (EqOff.refl _ _).patch (length_leBytes v) (by omega) subset_rfl
  have hpseudo : pseudoHeader (r.ipHdr f) protocol (f.length - r.l4Offset) =
      pseudoHeader (r.ipHdr z) protocol (z.length - r.l4Offset) := by
    rw [hflen, hzlen]
    exact pseudoHeader_congr (fun i _ hi => hwrite.getElem? i fun hmem => by
      rw [Set.mem_Ico] at hmem
      omega) _ _
  obtain ⟨-, hpairs, -⟩ := calculatePseudoHeaderSum_eq hip hprotocol (hzlen ▸ hlen)
  have hsegment : leSum (f.drop r.l4Offset) = leSum (z.drop r.l4Offset) + v.toNat := by
    have hfilled := leSum_filled (n := g.length - r.l4Offset) hpos heven (by omega) hend v
    rw [← hz, ← hf, take_of_length_le (by rw [length_drop]; omega),
      take_of_length_le (by rw [length_drop]; omega)] at hfilled
    exact hfilled
  have hbyte : UInt8.ofNat protocol ≠ 0 := by
    intro hzero
    have hnat := congrArg UInt8.toNat hzero
    rw [UInt8.toNat_ofNat', Nat.mod_eq_of_lt hprotocol] at hnat
    exact hproto hnat
  rw [hpseudo]
  apply onesSum_eq
  · rw [leSum_append hpairs, hsegment, ← Nat.add_assoc, ← leSum_append hpairs]
    exact hv
  · exact leSum_ne_zero (mem_append_left _ (mem_pseudoHeader _ _ _)) hbyte

variable {frame : List UInt8} {offset size : ℕ}

/-- **An IPv4 header whose checksum is filled in** sums to all ones; `z` has zero in the field. -/
theorem onesSum_ipHeader {start n : ℕ} (hz : z = patch g (start + 10) [0, 0])
    (hihl : n = byteAt z start % 16 * 4) (hmin : 20 ≤ n) (hlen : start + n ≤ g.length) (sse2 : Bool)
    :
    onesSum (((patch z (start + 10) (leBytes (calculateIpChecksum sse2 (z.drop start)))).drop
      start).take n) = 0xFFFF := by
  have hzlen : z.length = g.length := by
    rw [hz, length_patch (by rfl : [(0 : UInt8), 0].length = 2) (by omega)]
  have hhead : (z.drop start).getD 0 0 = z.getD start 0 := by
    rw [getD_eq_getElem?_getD, List.getElem?_drop, Nat.add_zero, ← getD_eq_getElem?_getD]
  have hsum : ∀ v : UInt16, leSum (((patch z (start + 10) (leBytes v)).drop start).take n) =
      leSum ((z.drop start).take n) + v.toNat := by
    rw [hz]
    exact leSum_filled (by omega) (by rw [Nat.add_sub_cancel_left]; decide) (by omega) (by omega)
  have hdvd : 65535 ∣ leSum ((z.drop start).take n) +
      (calculateIpChecksum sse2 (z.drop start)).toNat := by
    apply dvd_calculateIpChecksum
    · rw [hhead]
      exact hihl
    · rw [length_drop]
      omega
  -- the header length is in the first byte, so the header is not all zero
  have hpos : leSum ((z.drop start).take n) ≠ 0 := by
    have hfirst : ((z.drop start).take n)[0]? = some (z.getD start 0) := by
      rw [List.getElem?_take_of_lt (by omega), List.getElem?_drop, Nat.add_zero,
        getD_eq_getElem?_getD, List.getElem?_eq_getElem (by omega), Option.getD_some]
    refine leSum_ne_zero (mem_of_getElem? hfirst) fun hzero => ?_
    rw [byteAt, hzero, UInt8.toNat_zero] at hihl
    omega
  apply onesSum_eq
  · rw [hsum]
    exact hdvd
  · rw [hsum]
    omega

/-- The IPv4 header of a fragment verifies. -/
theorem Parsed.ipHeader_verifies (h : Parsed frame r) (h4 : r.isIpv4 = true)
    (hsize : offset + size ≤ r.payloadLen) (sse2 : Bool) :
    onesSum (((rewriteFragment sse2 r true frame offset size).drop r.ipOffset).take r.ipHdrLen) =
      0xFFFF := by
  obtain ⟨hlen, -, hoff⟩ := h.shape.rewriteFragment_eqOff hsize sse2 true
  obtain ⟨-, -, -, hhdr, -, -, hl4, hl4len, -, -, hpayload, hcaptured, -, -⟩ := h.shape
  have hihl : r.ipHdrLen = byteAt frame r.ipOffset % 16 * 4 := by
    rcases h.ip with ⟨-, -, hip⟩ | ⟨hv4, -⟩
    · exact hip.ipHdrLen
    · rw [h4] at hv4
      cases hv4
  obtain ⟨g, hg⟩ : ∃ g, g = patch (rawFragment r frame offset size) (r.ipOffset + 2)
      (be 2 (r.ipHdrLen + r.l4HdrLen + size)) := ⟨_, rfl⟩
  obtain ⟨z, hz⟩ : ∃ z, z = patch g (r.ipOffset + 10) [0, 0] := ⟨_, rfl⟩
  have hip : updateIp sse2 r true size (rawFragment r frame offset size) =
      patch z (r.ipOffset + 10) (leBytes (calculateIpChecksum sse2 (z.drop r.ipOffset))) := by
    simp only [updateIp, h4, if_true, ← hg, ← hz]
  have hglen : g.length = r.payloadOffset + size := by
    rw [hg, length_patch (length_be 2 _) (by omega), hlen]
  -- the first byte of the header is that of the frame
  have hfirst : z[r.ipOffset]? = frame[r.ipOffset]? := by
    have hwritten : EqOff (Set.Ico (r.ipOffset + 2) (r.ipOffset + 12))
        (rawFragment r frame offset size) z := by
      rw [hz, hg]
      refine ((EqOff.refl _ _).patch (length_be 2 _) (by omega) ?_).patch
        (by rfl : [(0 : UInt8), 0].length = 2) (by omega) ?_
      all_goals exact Set.Ico_subset_Ico (by omega) (by omega)
    rw [hwritten.getElem? _ (by rw [Set.mem_Ico]; omega),
      getElem?_rawFragment (by omega) (by omega)]
  have hwindow : ((rewriteFragment sse2 r true frame offset size).drop r.ipOffset).take r.ipHdrLen =
      ((updateIp sse2 r true size (rawFragment r frame offset size)).drop r.ipOffset).take
        r.ipHdrLen := by
    refine hoff.slice fun i hle hlt hmem => ?_
    have := mem_l4Fields hmem
    omega
  rw [hwindow, hip]
  exact onesSum_ipHeader hz (hihl.trans (by rw [byteAt_congr hfirst])) hhdr (by omega) sse2

theorem Shape.ipHdr_whole (h : Shape frame r) (hlen : r.payloadOffset ≤ g.length) :
    (r.ipHdr g).Whole ∧ r.ipOffset + (if r.isIpv4 then 20 else 40) ≤ r.l4Offset := by
  obtain ⟨-, -, -, hhdr, hv6, -, hl4, -, -, -, hpayload, -, -, -⟩ := h
  unfold PacketParseResult.ipHdr
  split_ifs with h4
  · rw [IpHdr.Whole, length_drop]
    omega
  · have := hv6 (Bool.eq_false_of_not_eq_true h4)
    rw [IpHdr.Whole, length_drop]
    omega

/-- A segment whose checksum field at `k` was filled in verifies. -/
theorem Shape.segment_verifies (h : Shape frame r) (hsize : size ≤ r.payloadLen) {k protocol : ℕ}
    {v : UInt16} (hg : g.length = r.payloadOffset + size) (hz : z = patch g (r.l4Offset + k) [0, 0])
    (hf : f = patch z (r.l4Offset + k) (leBytes v)) (heven : Even k) (hk : k + 2 ≤ r.l4HdrLen)
    (hprotocol : protocol < 256) (hproto : protocol ≠ 0) (sse2 : Bool)
    (hv : v.toNat ≡ (calculateL4Checksum sse2 protocol (r.ipHdr z)
      ((z.drop r.l4Offset).take (r.l4HdrLen + size))).toNat [MOD 65535]) :
    onesSum (pseudoHeader (r.ipHdr f) protocol (f.length - r.l4Offset) ++ f.drop r.l4Offset) =
      0xFFFF := by
  have hpayload := h.payloadOffset
  have htotal := h.total
  have hzlen : z.length = r.payloadOffset + size := by
    rw [hz, length_patch (by rfl : [(0 : UInt8), 0].length = 2) (by omega), hg]
  have hsegment : (z.drop r.l4Offset).take (r.l4HdrLen + size) = z.drop r.l4Offset :=
    take_of_length_le (by rw [length_drop]; omega)
  obtain ⟨hwhole, hheader⟩ := h.ipHdr_whole (by omega : r.payloadOffset ≤ z.length)
  have hdvd : 65535 ∣ leSum (pseudoHeader (r.ipHdr z) protocol (z.length - r.l4Offset) ++
      z.drop r.l4Offset) + v.toNat := by
    have hshort : (z.drop r.l4Offset).length < 2 ^ 16 := by
      rw [length_drop]
      omega
    have hcheck := dvd_calculateL4Checksum sse2 hwhole hprotocol hshort
    rw [length_drop] at hcheck
    rw [hsegment] at hv
    exact (Nat.modEq_zero_iff_dvd).mp
      ((hv.add_left _).trans ((Nat.modEq_zero_iff_dvd).mpr hcheck))
  exact onesSum_filled hz hf hwhole (by omega) (by omega)
    (by rw [Nat.add_sub_cancel_left]; exact heven) (by omega) (by omega) hprotocol hproto hdvd

/-- The TCP segment of a fragment verifies. -/
theorem Parsed.tcp_verifies (h : Parsed frame r) (ht : r.isTcp = true)
    (hsize : offset + size ≤ r.payloadLen) (sse2 : Bool) :
    let f := rewriteFragment sse2 r true frame offset size
    onesSum (pseudoHeader (r.ipHdr f) ipprotoTcp (f.length - r.l4Offset) ++ f.drop r.l4Offset) =
      0xFFFF := by
  intro f
  obtain ⟨hlen, hip, -⟩ := h.shape.rewriteFragment_eqOff hsize sse2 true
  have hmin := h.shape.tcp ht
  have hpayload := h.shape.payloadOffset
  have hlenIp := hip.length_eq
  obtain ⟨g, hg⟩ : ∃ g, g = updateIp sse2 r true size (rawFragment r frame offset size) := ⟨_, rfl⟩
  rw [← hg] at hlenIp
  have hseq : (patch g (r.l4Offset + 4) (be 4 (u32At g (r.l4Offset + 4) + offset))).length =
      r.payloadOffset + size := by
    rw [length_patch (length_be 4 _) (by omega), hlenIp, hlen]
  refine h.shape.segment_verifies (by omega) hseq rfl (f := f) ?_ (by decide : Even 16) (by omega)
    (by decide) (by decide) sse2 (Nat.ModEq.refl _)
  simp only [f, rewriteFragment, updateL4, ht, if_true, ← hg]
  rfl

theorem udpChecksumForWire_spec (check : UInt16) :
    (udpChecksumForWire check).toNat ≡ check.toNat [MOD 65535] ∧ udpChecksumForWire check ≠ 0 := by
  unfold udpChecksumForWire
  split_ifs with hzero
  · rw [hzero]
    exact ⟨by decide, by decide⟩
  · exact ⟨Nat.ModEq.refl _, hzero⟩

/-- **The UDP segment of a fragment verifies**, and its checksum field is not zero. -/
theorem Parsed.udp_verifies (h : Parsed frame r) (ht : r.isTcp = false)
    (hsize : offset + size ≤ r.payloadLen) (sse2 : Bool) :
    let f := rewriteFragment sse2 r true frame offset size
    onesSum (pseudoHeader (r.ipHdr f) ipprotoUdp (f.length - r.l4Offset) ++ f.drop r.l4Offset) =
      0xFFFF ∧ u16At f (r.l4Offset + 6) ≠ 0 := by
  intro f
  obtain ⟨hlen, hip, -⟩ := h.shape.rewriteFragment_eqOff hsize sse2 true
  have hmin := h.shape.udp ht
  have hu : r.isUdp = true := by rw [h.shape.protocol, ht]; rfl
  have hpayload := h.shape.payloadOffset
  have hlenIp := hip.length_eq
  obtain ⟨g₁, hg₁⟩ : ∃ g₁, g₁ = updateIp sse2 r true size (rawFragment r frame offset size) :=
    ⟨_, rfl⟩
  rw [← hg₁] at hlenIp
  obtain ⟨g, hg⟩ : ∃ g, g = patch g₁ (r.l4Offset + 4) (be 2 (r.l4HdrLen + size)) := ⟨_, rfl⟩
  obtain ⟨z, hz⟩ : ∃ z, z = patch g (r.l4Offset + 6) [0, 0] := ⟨_, rfl⟩
  obtain ⟨check, hcheck⟩ : ∃ check, check = calculateUdpChecksum sse2 (r.ipHdr z)
      ((z.drop r.l4Offset).take (r.l4HdrLen + size)) := ⟨_, rfl⟩
  have hglen : g.length = r.payloadOffset + size := by
    rw [hg, length_patch (length_be 2 _) (by omega), hlenIp, hlen]
  have hf : f = patch z (r.l4Offset + 6) (leBytes (udpChecksumForWire check)) := by
    simp only [f, rewriteFragment, updateL4, ht, hu, Bool.false_eq_true, if_false, if_true, ← hg₁,
      ← hg, ← hz, ← hcheck]
  obtain ⟨hwire, hne⟩ := udpChecksumForWire_spec check
  refine ⟨h.shape.segment_verifies (by omega) hglen hz hf (by decide : Even 6) (by omega)
    (by decide) (by decide) sse2 ?_, ?_⟩
  · rw [hcheck] at hwire ⊢
    exact hwire
  · have hzlen : z.length = r.payloadOffset + size := by
      rw [hz, length_patch (by rfl : [(0 : UInt8), 0].length = 2) (by omega), hglen]
    have hfield : ((f.drop (r.l4Offset + 6)).take 2) = leBytes (udpChecksumForWire check) := by
      rw [hf]
      exact slice_patch (leBytes _) (by omega)
    rw [u16At, hfield]
    intro hzero
    apply hne
    apply UInt16.toNat_inj.mp
    have := (udpChecksumForWire check).toNat_lt
    simp only [leBytes, ofBe, foldl_cons, foldl_nil, UInt8.toNat_ofNat'] at hzero
    rw [UInt16.toNat_zero]
    omega

/-- **Rebuilt checksums verify.** With new checksums every fragment of every accepted frame passes a
receiver's checks, and a UDP checksum is never zero. -/
theorem rebuilt_checksums_verify (frame : List UInt8) (r : PacketParseResult) (max i : ℕ)
    (sse2 : Bool) (f : List UInt8) (hparse : parsePacket frame = some r)
    (hcount : 1 < calculateFragmentCount r max) (hi : i < calculateFragmentCount r max)
    (hbuild : buildFragment sse2 r frame i max true = some f) :
    (r.isIpv4 = true → onesSum ((f.drop r.ipOffset).take r.ipHdrLen) = 0xFFFF) ∧
      onesSum (pseudoHeader (r.ipHdr f) (if r.isTcp then ipprotoTcp else ipprotoUdp)
        (f.length - r.l4Offset) ++ f.drop r.l4Offset) = 0xFFFF ∧
      (r.isUdp = true → u16At f (r.l4Offset + 6) ≠ 0) := by
  have h := (parsePacket_eq_some_iff frame r).mp hparse
  obtain ⟨hmax, -, hn⟩ := calculateFragmentCount_of_lt hcount
  have hstart : i * max < r.payloadLen := mul_lt_of_lt_count hmax (hn ▸ hi)
  have hsize : i * max + min max (r.payloadLen - i * max) ≤ r.payloadLen := by omega
  rw [h.buildFragment hmax hstart] at hbuild
  obtain rfl := Option.some.inj hbuild
  refine ⟨fun h4 => h.ipHeader_verifies h4 hsize sse2, ?_, ?_⟩
  · split_ifs with ht
    · exact h.tcp_verifies ht hsize sse2
    · exact (h.udp_verifies (Bool.eq_false_of_not_eq_true ht) hsize sse2).1
  · intro hu
    rw [h.shape.protocol, Bool.not_eq_true'] at hu
    exact (h.udp_verifies hu hsize sse2).2

end Fragments

/-- The second fragment of a datagram, with one byte of payload. -/
theorem rebuilt_checksums_verify_udp :
    let r : PacketParseResult := ⟨true, false, false, true, false, 0, 14, 34, 42, 20, 0, 8, 3⟩
    parsePacket udpFrame = some r ∧ calculateFragmentCount r 2 = 2 ∧
      ∃ f, buildFragment true r udpFrame 1 2 true = some f ∧
        onesSum ((f.drop 14).take 20) = 0xFFFF ∧
        onesSum (pseudoHeader (.v4 (f.drop 14)) 17 (f.length - 34) ++ f.drop 34) = 0xFFFF ∧
        u16At f 40 ≠ 0 := by
  intro r
  have hcount : calculateFragmentCount r 2 = 2 := by decide
  obtain ⟨f, hf⟩ : ∃ f, buildFragment true r udpFrame 1 2 true = some f :=
    Option.isSome_iff_exists.mp (buildFragment_isSome _ _ _ _ (by omega) (by omega))
  obtain ⟨hip, hudp, hne⟩ := rebuilt_checksums_verify udpFrame r 2 1 true f parsePacket_udpFrame
    (by omega) (by omega) hf
  exact ⟨parsePacket_udpFrame, hcount, f, hf, hip rfl, hudp, hne rfl⟩

end CloudProbe.Worker
