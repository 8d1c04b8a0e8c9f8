import CloudProbe.Lib.Bytes

/-!
# The one's complement checksums of the splitter

The checksum core of `packet_split.c`. Words are loaded in the byte order of a little-endian host.
The unrolled scalar loops add the words one after the other; the SSE2 loop adds 32 bytes at a time
in four 32-bit lanes, which are added up at the end.

Sources without a file are in `packet_split.c`.
-/

namespace CloudProbe.Worker

open Lib

/-- A 16-bit word in memory, loaded by a little-endian host. -/
def leWord (lo hi : UInt8) : UInt32 := UInt32.ofNat (lo.toNat + 256 * hi.toNat)

/-- A 16-bit value stored by a little-endian host. -/
def leBytes (v : UInt16) : List UInt8 := [UInt8.ofNat v.toNat, UInt8.ofNat (v.toNat / 256)]

/-- `htons` of a little-endian host. -/
def htons (n : ℕ) : UInt32 := UInt32.ofNat (n / 256 % 256 + 256 * (n % 256))

def cksumFold (sum : UInt32) : UInt16 :=
  let sum := (sum >>> 16) + (sum &&& 0xFFFF)
  let sum := (sum >>> 16) + (sum &&& 0xFFFF)
  sum.toUInt16

/-- The scalar loops: the words one after the other, then a trailing odd byte.
Source: `cksum_accumulate` -/
def cksumScalar (sum : UInt32) : List UInt8 → UInt32
  | [] => sum
  | [b] => sum + b.toUInt32
  | lo :: hi :: rest => cksumScalar (sum + leWord lo hi) rest

structure Lanes where
  l0 : UInt32
  l1 : UInt32
  l2 : UInt32
  l3 : UInt32

def wordAt (buf : List UInt8) (i : ℕ) : UInt32 :=
  leWord (buf.getD (2 * i) 0) (buf.getD (2 * i + 1) 0)

/-- `_mm_add_epi32` of the lanes with the four words from word `i` on. -/
def Lanes.addWords (v : Lanes) (buf : List UInt8) (i : ℕ) : Lanes :=
  ⟨v.l0 + wordAt buf i, v.l1 + wordAt buf (i + 1), v.l2 + wordAt buf (i + 2),
    v.l3 + wordAt buf (i + 3)⟩

/-- The SSE2 loop over `n` blocks of 32 bytes.
Source: `cksum_accumulate` -/
def cksumSse2 : ℕ → Lanes → List UInt8 → Lanes
  | 0, v, _ => v
  | n + 1, v, buf =>
    let v := ((v.addWords buf 0).addWords buf 4 |>.addWords buf 8).addWords buf 12
    cksumSse2 n v (buf.drop 32)

/-- The horizontal sum of the lanes.
Source: `cksum_accumulate` -/
def Lanes.reduce (v : Lanes) : UInt32 := (v.l0 + v.l2) + (v.l1 + v.l3)

/-- Source: `cksum_accumulate`, with and without `__SSE2__` -/
def cksumAccumulate (sse2 : Bool) (buf : List UInt8) (initialSum : UInt32) : UInt32 :=
  if sse2 then
    let blocks := buf.length / 32
    cksumScalar (initialSum + (cksumSse2 blocks ⟨0, 0, 0, 0⟩ buf).reduce) (buf.drop (32 * blocks))
  else cksumScalar initialSum buf

def cksumFinish (partialSum : UInt32) : UInt16 := ~~~ cksumFold partialSum

/-- The checksum of an IPv4 header at the start of `hdr`; headers without options take a path
without a loop.
Source: `calculate_ip_checksum` -/
def calculateIpChecksum (sse2 : Bool) (hdr : List UInt8) : UInt16 :=
  let ihl := (hdr.getD 0 0).toNat % 16
  if ihl = 5 then
    cksumFinish (wordAt hdr 0 + wordAt hdr 1 + wordAt hdr 2 + wordAt hdr 3 + wordAt hdr 4 +
      wordAt hdr 5 + wordAt hdr 6 + wordAt hdr 7 + wordAt hdr 8 + wordAt hdr 9)
  else cksumFinish (cksumAccumulate sse2 (hdr.take (ihl * 4)) 0)

inductive IpHdr where
  | v4 (hdr : List UInt8)
  | v6 (hdr : List UInt8)

def wordSum (buf : List UInt8) (first count : ℕ) : UInt32 :=
  (List.range count).foldl (fun sum i => sum + wordAt buf (first + i)) 0

def calculatePseudoHeaderSum (ip : IpHdr) (protocol l4Len : ℕ) : UInt32 :=
  match ip with
  -- `saddr` and `daddr` are words 6 to 9 of an IPv4 header
  | .v4 hdr => wordSum hdr 6 4 + htons protocol + htons l4Len
  -- and words 4 to 19 of an IPv6 header
  | .v6 hdr => wordSum hdr 4 16 + htons l4Len + htons protocol

/-- The checksum of a TCP or UDP segment. Source: `calculate_tcp_checksum` with protocol 6,
`calculate_udp_checksum` with protocol 17 -/
def calculateL4Checksum (sse2 : Bool) (protocol : ℕ) (ip : IpHdr) (segment : List UInt8) : UInt16 :=
  cksumFinish (cksumAccumulate sse2 segment (calculatePseudoHeaderSum ip protocol segment.length))

def calculateTcpChecksum (sse2 : Bool) : IpHdr → List UInt8 → UInt16 := calculateL4Checksum sse2 6

def calculateUdpChecksum (sse2 : Bool) : IpHdr → List UInt8 → UInt16 := calculateL4Checksum sse2 17

def udpChecksumForWire (check : UInt16) : UInt16 := if check = 0 then 0xFFFF else check

theorem toNat_foldStep (s : UInt32) :
    ((s >>> 16) + (s &&& 0xFFFF)).toNat = s.toNat / 65536 + s.toNat % 65536 := by
  have hlow : s.toNat &&& 65535 = s.toNat % 65536 := Nat.and_two_pow_sub_one_eq_mod _ 16
  have hlt := s.toNat_lt
  simp only [UInt32.toNat_add, UInt32.toNat_shiftRight, UInt32.toNat_and, UInt32.reduceToNat,
    Nat.reduceMod, hlow, Nat.shiftRight_eq_div_pow]
  omega

end CloudProbe.Worker
