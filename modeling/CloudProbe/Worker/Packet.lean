import Mathlib.Data.Int.Notation
import Mathlib.Tactic.Common

/-!
# Captured packets and what the outputs count of them

A `Packet` carries exactly the captured bytes (`data_length`), so no function of the model can read
past `caplen`.

Sources are in `pkt_dir.h`, `vlan.h` and `output.h`.
-/

namespace CloudProbe.Worker

/-- `struct timeval`. -/
structure Timeval where
  sec : ℤ
  usec : ℤ
deriving DecidableEq, Repr

/-- `struct pcap_pkthdr`. -/
structure PcapPkthdr where
  ts : Timeval
  caplen : UInt32
  len : UInt32
deriving DecidableEq, Repr

/-- A captured packet: the header and the `caplen` captured bytes. -/
structure Packet where
  hdr : PcapPkthdr
  data : List UInt8
  data_length : data.length = hdr.caplen.toNat
deriving DecidableEq, Repr

/-- `PKT_DIR_*`.
Source: `pkt_dir.h` -/
inductive PktDir where
  | unknown
  | noncheck
  | incoming
  | outgoing
deriving DecidableEq, Repr

/-- The `int` value of a direction.
Source: `pkt_dir.h` -/
def PktDir.toInt : PktDir → ℤ
  | .unknown => -1
  | .noncheck => 0
  | .incoming => 1
  | .outgoing => 2

/-- `sizeof(struct ether_header)`. -/
def etherHeaderLen : ℕ := 14

/-- Source: `vlan.h` `is_vlan_ethertype` -/
def isVlanEthertype (etherType : ℕ) : Bool :=
  etherType = 0x8100 || etherType = 0x88a8 || etherType = 0x9100 || etherType = 0x9200

/-- The length of the frame an output carries and counts: the captured length after `slice`, capped
at the largest frame the output can carry.
Source: `output.h` `output_frame_len` -/
def outputFrameLen (caplen : UInt32) (slice : ℤ) (maxLen : ℕ) : ℕ :=
  let frameLen := if 0 < slice ∧ slice < (caplen.toNat : ℤ) then slice.toNat else caplen.toNat
  if frameLen < maxLen then frameLen else maxLen

theorem outputFrameLen_le_caplen (caplen : UInt32) (slice : ℤ) (maxLen : ℕ) :
    outputFrameLen caplen slice maxLen ≤ caplen.toNat := by
  simp only [outputFrameLen]
  split_ifs <;> omega

theorem outputFrameLen_le_max (caplen : UInt32) (slice : ℤ) (maxLen : ℕ) :
    outputFrameLen caplen slice maxLen ≤ maxLen := by
  simp only [outputFrameLen]
  split_ifs <;> omega

end CloudProbe.Worker
