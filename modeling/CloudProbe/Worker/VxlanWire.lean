import CloudProbe.Daemon.TaskBuilder
import CloudProbe.Worker.Vxlan
import Mathlib.Data.List.GetD

/-!
# The vxlan wire format, from the tag to a receiver

* **A receiver** (`VxlanReceiver`): the tag format and the trailer are settings of the receiver. A
  direction is read from every datagram, unless the receiver knows that none is sent; nothing in a
  datagram tells.
* **The check byte** (`documentedCheck`): the sum of the wire format, and that the code computes it.
* **The tags** (`ConfiguredTag`): what may be configured, with what arrives of it.

A service tag that is sent without a direction takes the bits of the direction, so a receiver that
looks for a direction there may see one.

Sources without a file are in `docs/VXLAN-WIRE-FORMAT.md`.
-/

open CloudProbe.Daemon (Vni2Tag)

namespace CloudProbe.Worker

open Lib List

/-! ## A receiver -/

/-- The format of bytes 4 to 7.
Source: 4, 5 -/
inductive TagFormat where
  | vni1
  | vni2
deriving DecidableEq

/-- A tag as a receiver sees it.
Source: 4, 5 -/
inductive ReceivedTag where
  | service (tag : ℕ)
  | observation (domainId pointId extensionFlag : ℕ)
deriving DecidableEq

/-- The direction and the tag in bytes 4 to 7. The receiver of a service tag reads a direction and
12 bits (`directed`). One that knows that no direction is sent can read all 24 bits.
Source: 4, 5 -/
def TagFormat.read (format : TagFormat) (directed : Bool) (b4 b5 b6 b7 : UInt8) :
    ℕ × ReceivedTag :=
  match format with
  | .vni1 =>
    if directed then (b4.toNat / 16, .service (b5.toNat % 16 * 256 + b6.toNat))
    else (0, .service (ofBe [b4, b5, b6]))
  | .vni2 =>
    (b7.toNat % 4, .observation (ofBe [b4, b5, b6]) (b7.toNat / 4 % 32) (b7.toNat / 128))

/-- The frame, and the capture time when it is sent along.
Source: 2, 6 -/
def readBody (captureTime : Bool) (body : List UInt8) : Option (List UInt8 × Option Timeval) :=
  if captureTime then
    if body.length < 8 then none
    else
      let trailer := body.drop (body.length - 8)
      some (body.take (body.length - 8),
        some ⟨ofBe (trailer.take 4), (ofBe (trailer.drop 4) / 1000 : ℕ)⟩)
  else some (body, none)

/-- What a receiver has to know: the format of the tag, whether to read a direction, and whether the
capture time is sent along.
Source: 4, 6 -/
structure VxlanReceiver where
  format : TagFormat
  directed : Bool
  captureTime : Bool

structure VxlanReceived where
  frame : List UInt8
  direction : ℕ
  tag : ReceivedTag
  captured : Option Timeval
deriving DecidableEq

/-- Source: 2, 3 -/
def VxlanReceiver.read (r : VxlanReceiver) (payload : List UInt8) : Option VxlanReceived :=
  if payload.take 4 = [0x08, 0, 0, 0] then
    match payload.drop 4 with
    | b4 :: b5 :: b6 :: b7 :: body =>
      let tag := r.format.read r.directed b4 b5 b6 b7
      (readBody r.captureTime body).map fun read => ⟨read.1, tag.1, tag.2, read.2⟩
    | _ => none
  else none

/-! ## The body -/

variable {direct : PktDir} (o : VxlanOutput) (ts : Timeval) (frame : List UInt8)

theorem VxlanOutput.fill_eq :
    ∃ rest, o.fill ts frame = (frame ++ captureTrailer o.captureTime ts) ++ rest := by
  refine ⟨o.area.drop (0 + (frame ++ captureTrailer o.captureTime ts).length), ?_⟩
  unfold fill patch
  rw [take_zero, nil_append]

theorem VxlanOutput.take_fill :
    (o.fill ts frame).take (frame.length + (captureTrailer o.captureTime ts).length) =
      frame ++ captureTrailer o.captureTime ts := by
  obtain ⟨rest, hrest⟩ := o.fill_eq ts frame
  rw [hrest, ← length_append, take_left]

def receivedTime (captureTime : Bool) (ts : Timeval) : Option Timeval :=
  if captureTime then some ⟨ts.sec % 2 ^ 32, ts.usec * 1000 % 2 ^ 32 / 1000⟩ else none

/-- Frame and capture time are told apart. -/
theorem readBody_append (captureTime : Bool) (ts : Timeval) (frame : List UInt8) :
    readBody captureTime (frame ++ captureTrailer captureTime ts) =
      some (frame, receivedTime captureTime ts) := by
  unfold readBody captureTrailer receivedTime
  split_ifs with htime hshort
  · simp at hshort
  · have hsec : (UInt32.ofInt ts.sec).toNat < 256 ^ 4 := (UInt32.ofInt ts.sec).toNat_lt
    have hnsec : (UInt32.ofInt (ts.usec * 1000)).toNat < 256 ^ 4 :=
      (UInt32.ofInt (ts.usec * 1000)).toNat_lt
    have hlen : (frame ++ (be 4 (UInt32.ofInt ts.sec).toNat ++
        be 4 (UInt32.ofInt (ts.usec * 1000)).toNat)).length - 8 = frame.length := by
      simp
    have hfirst : ∀ bytes, (be 4 (UInt32.ofInt ts.sec).toNat ++ bytes).take 4 =
        be 4 (UInt32.ofInt ts.sec).toNat := fun bytes => take_left' (length_be _ _)
    have hlast : ∀ bytes, (be 4 (UInt32.ofInt ts.sec).toNat ++ bytes).drop 4 = bytes :=
      fun bytes => drop_left' (length_be _ _)
    simp only [hlen, take_left, drop_left, hfirst, hlast, ofBe_be,
      Nat.mod_eq_of_lt hsec, Nat.mod_eq_of_lt hnsec, Nat.cast_ofNat, Int.natCast_ediv, toNat_ofInt]
  · rw [append_nil]

theorem received_usec_iff (usec : ℤ) :
    usec * 1000 % 2 ^ 32 / 1000 = usec ↔ 0 ≤ usec ∧ usec * 1000 < 2 ^ 32 := by
  omega

/-! ## The check byte -/

/-- The first `n` pairs of bytes as little-endian words, added up.
Source: 4.1 -/
def pairSum (b : List UInt8) (n : ℕ) : ℕ :=
  ((List.range n).map fun i => (b.getD (2 * i) 0).toNat + 256 * (b.getD (2 * i + 1) 0).toNat).sum

/-- The upper half of a word added to the lower one.
Source: 4.1 -/
def foldHalves (sum : ℕ) : ℕ := sum / 65536 + sum % 65536

/-- The check byte of the first 42 bytes of a datagram.
Source: 4.1 -/
def documentedCheck (b : List UInt8) : UInt8 :=
  UInt8.ofNat (foldHalves (foldHalves ((0x4A3B2D1C + pairSum b 21) % 2 ^ 32)))

theorem pairSum_succ (b : List UInt8) (n : ℕ) :
    pairSum b (n + 1) = (b.getD 0 0).toNat + 256 * (b.getD 1 0).toNat + pairSum (b.drop 2) n := by
  unfold pairSum
  rw [range_succ_eq_map, map_cons, sum_cons, map_map]
  congr 2
  apply map_congr_left
  intro i _
  simp only [Function.comp_apply, getD_eq_getElem?_getD, List.getElem?_drop]
  rw [show 2 * i.succ = 2 + 2 * i by omega, show 2 + 2 * i + 1 = 2 + (2 * i + 1) by omega]

/-- What the loop adds up. -/
theorem toNat_cksumScalar (sum : UInt32) (b : List UInt8) (n : ℕ) :
    (cksumScalar sum ((List.range (2 * n)).map fun i => b.getD i 0)).toNat =
      (sum.toNat + pairSum b n) % 2 ^ 32 := by
  induction n generalizing sum b with
  | zero => exact (Nat.mod_eq_of_lt sum.toNat_lt).symm
  | succ n ih =>
    have hbytes : ((List.range (2 * (n + 1))).map fun i => b.getD i 0) =
        b.getD 0 0 :: b.getD 1 0 :: (List.range (2 * n)).map fun i => (b.drop 2).getD i 0 := by
      rw [show 2 * (n + 1) = 2 * n + 1 + 1 by omega, range_succ_eq_map, range_succ_eq_map]
      simp only [map_cons, map_map]
      congr 2
      apply map_congr_left
      intro i _
      simp only [Function.comp_apply, getD_eq_getElem?_getD, List.getElem?_drop]
      rw [show i.succ.succ = 2 + i by omega]
    have hword : (leWord (b.getD 0 0) (b.getD 1 0)).toNat =
        (b.getD 0 0).toNat + 256 * (b.getD 1 0).toNat := by
      have hlo := (b.getD 0 0).toNat_lt
      have hhi := (b.getD 1 0).toNat_lt
      rw [leWord, UInt32.toNat_ofNat_of_lt']
      exact lt_of_lt_of_le (by omega : _ < 2 ^ 16) (by decide)
    rw [hbytes, cksumScalar, ih, UInt32.toNat_add, hword, pairSum_succ]
    omega

theorem toUInt8_cksumFold (sum : UInt32) :
    (cksumFold sum).toUInt8 = UInt8.ofNat (foldHalves (foldHalves sum.toNat)) := by
  have hfold : ∀ s : UInt32, ((s >>> 16) + (s &&& 0xFFFF)).toNat = foldHalves s.toNat :=
    toNat_foldStep
  apply UInt8.toNat_inj.mp
  rw [cksumFold]
  simp only [UInt16.toNat_toUInt8, UInt32.toNat_toUInt16, hfold, UInt8.toNat_ofNat']
  omega

theorem rteRawCksum_eq (b : List UInt8) : (rteRawCksum b 42).toUInt8 = documentedCheck b := by
  have hsum := toNat_cksumScalar 0x4a3b2d1c b 21
  rw [rteRawCksum, toUInt8_cksumFold, hsum]
  rfl

theorem documentedCheck_append {b : List UInt8} (h : 42 ≤ b.length) (rest : List UInt8) :
    documentedCheck (b ++ rest) = documentedCheck b := by
  have hpairs : pairSum (b ++ rest) 21 = pairSum b 21 := by
    unfold pairSum
    congr 1
    apply map_congr_left
    intro i hi
    have hlt := mem_range.mp hi
    rw [getD_append _ _ _ _ (by omega), getD_append _ _ _ _ (by omega)]
  rw [documentedCheck, hpairs, documentedCheck]

/-! ## The tags -/

/-- The places of the fields in an observation tag. -/
theorem toNat_encode (t : Vni2Tag) :
    t.encode.toNat =
      t.resourcePointDirection.toNat % 4 + 2 ^ 2 * (t.observationPointId.toNat % 32) +
      2 ^ 7 * (t.extensionFlag.toNat % 2) + 2 ^ 8 * (t.observationDomainId.toNat % 2 ^ 24) := by
  obtain ⟨direction, point, extension, domain⟩ := t
  have hdirection : direction.toNat &&& 3 = direction.toNat % 4 :=
    Nat.and_two_pow_sub_one_eq_mod _ 2
  have hpoint : point.toNat &&& 31 = point.toNat % 32 := Nat.and_two_pow_sub_one_eq_mod _ 5
  have hextension : extension.toNat &&& 1 = extension.toNat % 2 :=
    Nat.and_two_pow_sub_one_eq_mod _ 1
  have hdomain : domain.toNat &&& 16777215 = domain.toNat % 2 ^ 24 :=
    Nat.and_two_pow_sub_one_eq_mod _ 24
  simp only [Vni2Tag.encode, UInt32.toNat_or, UInt32.toNat_and, UInt32.toNat_shiftLeft,
    UInt32.reduceToNat, Nat.reduceMod, hdirection, hpoint, hextension, hdomain]
  rw [or_shiftLeft (k := 2) (by omega) (by omega), or_shiftLeft (k := 7) (by omega) (by omega),
    or_shiftLeft (k := 8) (by omega) (by omega)]

/-- A tag as it is configured: a service tag of 24 bits, or an encoded observation tag whose
direction bits are zero.
Source: 4, 5 -/
inductive ConfiguredTag where
  | vni1 (tag : ℕ) (h : tag < 2 ^ 24)
  | vni2 (tag : Vni2Tag) (h : tag.resourcePointDirection.toNat % 4 = 0)

namespace ConfiguredTag

/-- Source: `config.c` `parse_vxlan_config` -/
def vniVersion : ConfiguredTag → UInt8
  | .vni1 .. => 1
  | .vni2 .. => 2

/-- Source: `config.c` `parse_vxlan_config` -/
def vni : ConfiguredTag → UInt32
  | .vni1 tag _ => UInt32.ofNat tag
  | .vni2 tag _ => tag.encode

def format : ConfiguredTag → TagFormat
  | .vni1 .. => .vni1
  | .vni2 .. => .vni2

/-- What arrives of a tag: with a direction, only 12 bits of a service tag.
Source: 4, 5 -/
def received (directed : Bool) : ConfiguredTag → ReceivedTag
  | .vni1 tag _ => .service (if directed then tag % 2 ^ 12 else tag)
  | .vni2 tag _ =>
    .observation (tag.observationDomainId.toNat % 2 ^ 24) (tag.observationPointId.toNat % 2 ^ 5)
      (tag.extensionFlag.toNat % 2)

/-- The direction is in the datagram: a service tag leaves its place free, or is sent with one. -/
def ShowsDirection (direct : PktDir) : ConfiguredTag → Prop
  | .vni1 tag _ => direct ≠ .noncheck ∨ tag < 2 ^ 20
  | .vni2 .. => True

end ConfiguredTag

def VxlanOutput.tagged (o : VxlanOutput) (tag : ConfiguredTag) : VxlanOutput :=
  { o with vniVersion := tag.vniVersion, vni := tag.vni }

theorem toInt_lt_three (h : direct ≠ .unknown) :
    0 ≤ direct.toInt ∧ direct.toInt < 3 := by
  match direct with
  | .unknown => exact absurd rfl h
  | .noncheck | .incoming | .outgoing => decide

/-- A service tag with its direction is read back. -/
theorem read_paTag {tag : ℕ} (htag : tag < 2 ^ 24) (hdirect : direct ≠ .unknown) :
    ∃ b4 b5 b6, paTag (UInt32.ofNat tag) direct = [b4, b5, b6] ∧ ∀ b7,
      TagFormat.vni1.read (direct ≠ .noncheck) b4 b5 b6 b7 =
        (direct.toInt.toNat, (ConfiguredTag.vni1 tag htag).received (direct ≠ .noncheck)) ∧
      ((TagFormat.vni1.read true b4 b5 b6 b7).1 = direct.toInt.toNat ↔
        direct ≠ .noncheck ∨ tag < 2 ^ 20) := by
  have hvni : (UInt32.ofNat tag).toNat = tag :=
    UInt32.toNat_ofNat_of_lt' (lt_of_lt_of_le htag (by decide))
  by_cases hnone : direct = .noncheck
  · subst hnone
    refine ⟨_, _, _, rfl, fun b7 => ⟨?_, ?_⟩⟩
    · simp only [TagFormat.read, ConfiguredTag.received, PktDir.toInt, ofBe, foldl_cons,
        foldl_nil, UInt8.toNat_ofNat', hvni]
      simp
      omega
    · simp only [TagFormat.read, PktDir.toInt, UInt8.toNat_ofNat', hvni]
      simp
      omega
  · have hsmall := toInt_lt_three hdirect
    refine ⟨_, _, _, if_neg hnone, fun b7 => ⟨?_, ?_⟩⟩
    · simp only [TagFormat.read, ConfiguredTag.received, UInt8.toNat_ofNat', hvni]
      simp [hnone]
      omega
    · simp only [TagFormat.read, UInt8.toNat_ofNat']
      simp [hnone]
      omega

/-- An observation tag with its direction is read back. -/
theorem read_encode {tag : Vni2Tag} (hzero : tag.resourcePointDirection.toNat % 4 = 0)
    (hdirect : direct ≠ .unknown) (directed : Bool) :
    ∃ b4 b5 b6 b7, be 4 (UInt32.ofInt (tag.encode.toNat + direct.toInt)).toNat =
        [b4, b5, b6, b7] ∧
      TagFormat.vni2.read directed b4 b5 b6 b7 =
        (direct.toInt.toNat, .observation (tag.observationDomainId.toNat % 2 ^ 24)
          (tag.observationPointId.toNat % 2 ^ 5) (tag.extensionFlag.toNat % 2)) := by
  have hsmall := toInt_lt_three hdirect
  have hfields := toNat_encode tag
  have hsum : (UInt32.ofInt (tag.encode.toNat + direct.toInt)).toNat =
      tag.encode.toNat + direct.toInt.toNat := by
    have hcut := toNat_ofInt (tag.encode.toNat + direct.toInt)
    have hlt := tag.encode.toNat_lt
    omega
  refine ⟨_, _, _, _, rfl, ?_⟩
  rw [hsum]
  simp only [TagFormat.read, ofBe, foldl_cons, foldl_nil, UInt8.toNat_ofNat',
    Prod.mk.injEq, ReceivedTag.observation.injEq]
  omega

/-- Tag and direction are read back, in both formats. -/
theorem read_vxlanVni (tag : ConfiguredTag) (hdirect : direct ≠ .unknown) (area : List UInt8) :
    ∃ b4 b5 b6 b7, vxlanVni tag.vniVersion tag.vni direct area = [b4, b5, b6, b7] ∧
      tag.format.read (direct ≠ .noncheck) b4 b5 b6 b7 =
        (direct.toInt.toNat, tag.received (direct ≠ .noncheck)) ∧
      ((tag.format.read true b4 b5 b6 b7).1 = direct.toInt.toNat ↔ tag.ShowsDirection direct) := by
  rcases tag with ⟨tag, htag⟩ | ⟨tag, hzero⟩
  · obtain ⟨b4, b5, b6, hbytes, hread⟩ := read_paTag htag hdirect
    obtain ⟨check, hcheck⟩ : ∃ check, vxlanVni 1 (UInt32.ofNat tag) direct area =
        paTag (UInt32.ofNat tag) direct ++ [check] := ⟨_, rfl⟩
    rw [hbytes] at hcheck
    exact ⟨b4, b5, b6, check, hcheck, hread check⟩
  · obtain ⟨b4, b5, b6, b7, hbytes, hread⟩ := read_encode hzero hdirect (direct ≠ .noncheck)
    exact ⟨b4, b5, b6, b7, hbytes, hread, iff_of_true (congrArg Prod.fst hread) trivial⟩

/-! ## Round trip -/

theorem VxlanOutput.datagram_eq (direct : PktDir) :
    o.datagram ts frame direct =
      vxlanFlags ++ vxlanVni o.vniVersion o.vni direct (o.fill ts frame) ++
      (frame ++ captureTrailer o.captureTime ts) := by
  rw [datagram, take_fill]

theorem VxlanReceiver.read_datagram (r : VxlanReceiver) (b4 b5 b6 b7 : UInt8) (ts : Timeval)
    (frame : List UInt8) :
    r.read (vxlanFlags ++ [b4, b5, b6, b7] ++ (frame ++ captureTrailer r.captureTime ts)) =
      some ⟨frame, (r.format.read r.directed b4 b5 b6 b7).1,
        (r.format.read r.directed b4 b5 b6 b7).2, receivedTime r.captureTime ts⟩ := by
  have hbody := readBody_append r.captureTime ts frame
  show (readBody r.captureTime (frame ++ captureTrailer r.captureTime ts)).map _ = _
  rw [hbody]
  rfl

/-- The check byte is the documented one. -/
theorem check_datagram (direct : PktDir) (hversion : o.vniVersion = 1)
    (hlen : 34 ≤ frame.length + (captureTrailer o.captureTime ts).length) :
    (o.datagram ts frame direct)[7]? =
      some (documentedCheck ((o.datagram ts frame direct).set 7 0)) := by
  obtain ⟨rest, hrest⟩ := o.fill_eq ts frame
  obtain ⟨b4, b5, b6, htag⟩ : ∃ b4 b5 b6, paTag o.vni direct = [b4, b5, b6] := by
    unfold paTag
    split_ifs
    all_goals exact ⟨_, _, _, rfl⟩
  have hvni : vxlanVni o.vniVersion o.vni direct (o.fill ts frame) =
      [b4, b5, b6, documentedCheck (vxlanFlags ++ [b4, b5, b6, 0] ++
        (frame ++ captureTrailer o.captureTime ts))] := by
    have hcover : 42 ≤ (vxlanFlags ++ [b4, b5, b6, 0] ++
        (frame ++ captureTrailer o.captureTime ts)).length := by
      simp only [length_append, vxlanFlags, length_cons, length_nil]
      omega
    rw [vxlanVni, if_pos hversion, htag, hrest, ← documentedCheck_append hcover rest]
    dsimp only
    rw [rteRawCksum_eq]
    simp
  rw [o.datagram_eq, hvni]
  rfl

/-- **Round trip.** A receiver with the settings of the output reads back the frame, the direction,
the tag and the capture time, whatever the send buffer held before. Source: `output_vxlan.c`
`do_send_packet`, `docs/VXLAN-WIRE-FORMAT.md` -/
theorem vxlan_wire_round_trip (o : VxlanOutput) (tag : ConfiguredTag) (ts : Timeval)
    (frame : List UInt8) {direct : PktDir} (hdirect : direct ≠ .unknown) :
    (∃ got, (VxlanReceiver.mk tag.format (direct ≠ .noncheck) o.captureTime).read
        ((o.tagged tag).datagram ts frame direct) = some got ∧
      got.frame = frame ∧ (got.direction : ℤ) = direct.toInt ∧
      got.tag = tag.received (direct ≠ .noncheck) ∧
      (o.captureTime = false → got.captured = none) ∧
      (o.captureTime = true → ∃ time, got.captured = some time ∧ time.sec = ts.sec % 2 ^ 32 ∧
        (time.usec = ts.usec ↔ 0 ≤ ts.usec ∧ ts.usec * 1000 < 2 ^ 32))) ∧
    (∃ got, (VxlanReceiver.mk tag.format true o.captureTime).read
        ((o.tagged tag).datagram ts frame direct) = some got ∧
      ((got.direction : ℤ) = direct.toInt ↔ tag.ShowsDirection direct)) ∧
    (tag.format = .vni1 → 34 ≤ frame.length + (if o.captureTime then 8 else 0) →
      ((o.tagged tag).datagram ts frame direct)[7]? =
        some (documentedCheck (((o.tagged tag).datagram ts frame direct).set 7 0))) := by
  have hsmall := toInt_lt_three hdirect
  obtain ⟨b4, b5, b6, b7, hvni, hread, hshows⟩ :=
    read_vxlanVni tag hdirect ((o.tagged tag).fill ts frame)
  have hdatagram : (o.tagged tag).datagram ts frame direct =
      vxlanFlags ++ [b4, b5, b6, b7] ++ (frame ++ captureTrailer o.captureTime ts) := by
    rw [(o.tagged tag).datagram_eq, ← hvni]
    rfl
  refine ⟨?_, ?_, fun hformat hlen => ?_⟩
  · rw [hdatagram]
    refine ⟨_, VxlanReceiver.read_datagram ⟨_, _, _⟩ b4 b5 b6 b7 ts frame, rfl, ?_, ?_, ?_, ?_⟩
    · rw [hread]
      exact Int.toNat_of_nonneg hsmall.1
    · rw [hread]
    · intro hoff
      exact if_neg (by simp [hoff])
    · intro hon
      exact ⟨_, if_pos hon, rfl, received_usec_iff ts.usec⟩
  · rw [hdatagram]
    refine ⟨_, VxlanReceiver.read_datagram ⟨_, _, _⟩ b4 b5 b6 b7 ts frame, ?_⟩
    rw [← hshows]
    dsimp only
    omega
  · apply check_datagram
    · rcases tag with _ | _
      · rfl
      · cases hformat
    · have htrailer : (captureTrailer o.captureTime ts).length =
          if o.captureTime then 8 else 0 := by
        unfold captureTrailer
        split_ifs
        · rw [length_append, length_be, length_be]
        · rfl
      show 34 ≤ frame.length + (captureTrailer o.captureTime ts).length
      rw [htrailer]
      exact hlen

/-- The frame of the worked examples.
Source: 9 -/
def exampleFrame : List UInt8 :=
  [0xaa, 0xbb, 0xcc, 0xdd, 0xee, 0xff, 0x11, 0x22, 0x33, 0x44, 0x55, 0x66, 0x08, 0x00,
    0x45, 0x00, 0x00, 0x54, 0x12, 0x34, 0x40, 0x00, 0x40, 0x06, 0x00, 0x00,
    0x0a, 0x00, 0x00, 0x01, 0x0a, 0x00, 0x00, 0x02]

def plainOutput (captureTime : Bool) : VxlanOutput :=
  vxlanOutputNew ⟨captureTime, 1, 0, 0, 0, 0, false⟩ .zero

/-- Domain 3568, point 9.
Source: 9 -/
def exampleTag : ConfiguredTag := .vni2 ⟨0, 9, 0, 3568⟩ (by decide)

example : (((plainOutput false).tagged (.vni1 0xFFFFFF (by decide))).datagram ⟨0, 0⟩ exampleFrame
    .incoming).take 8 = [0x08, 0, 0, 0, 0x10, 0x0F, 0xFF, 0x62] := by decide +kernel

example : (((plainOutput false).tagged exampleTag).datagram ⟨0, 0⟩ exampleFrame .outgoing).take 8 =
    [0x08, 0, 0, 0, 0x00, 0x0D, 0xF0, 0x26] := by decide +kernel

/-- A response with its capture time. -/
theorem vxlan_wire_round_trip_response : PktDir.outgoing ≠ .unknown ∧
    ∃ got, (VxlanReceiver.mk .vni2 true true).read (((plainOutput true).tagged exampleTag).datagram
        ⟨1700000000, 250000⟩ exampleFrame .outgoing) = some got ∧
      got.frame = exampleFrame ∧ (got.direction : ℤ) = 2 ∧ got.tag = .observation 3568 9 0 ∧
      ∃ time, got.captured = some time ∧ time.sec = 1700000000 ∧ time.usec = 250000 := by
  obtain ⟨⟨got, hread, hframe, hdirection, htag, -, htime⟩, -⟩ := vxlan_wire_round_trip
    (plainOutput true) exampleTag ⟨1700000000, 250000⟩ exampleFrame
    (by decide : PktDir.outgoing ≠ .unknown)
  obtain ⟨time, hcaptured, hsec, husec⟩ := htime rfl
  exact ⟨by decide, got, hread, hframe, hdirection, htag, time, hcaptured, hsec,
    husec.mpr (by decide)⟩

/-- **The direction is not always in the datagram**: a service tag of more than 20 bits without a
direction gives the datagram of another tag with one, also by default. -/
theorem undirected_tag_reads_as_direction :
    ((plainOutput false).tagged (.vni1 0x100001 (by decide))).datagram ⟨0, 0⟩ exampleFrame
        .noncheck =
      ((plainOutput false).tagged (.vni1 0x000001 (by decide))).datagram ⟨0, 0⟩ exampleFrame
        .incoming ∧
    (VxlanReceiver.mk .vni1 true false).read (((plainOutput false).tagged
        (.vni1 0x100001 (by decide))).datagram ⟨0, 0⟩ exampleFrame .noncheck) =
      some ⟨exampleFrame, 1, .service 1, none⟩ ∧
    (VxlanReceiver.mk .vni1 true false).read (((plainOutput false).tagged
        (.vni1 0xFFFFFF (by decide))).datagram ⟨0, 0⟩ exampleFrame .noncheck) =
      some ⟨exampleFrame, 15, .service 0xFFF, none⟩ := by
  refine ⟨?_, ?_, ?_⟩
  all_goals decide +kernel

end CloudProbe.Worker
