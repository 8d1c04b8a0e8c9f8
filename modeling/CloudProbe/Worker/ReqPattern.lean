import CloudProbe.Worker.PacketSplit

/-!
# The direction of a captured packet

* **Endpoints** (`extractIpportFromEtherLayer` and the layers below it): the addresses and ports of
  a frame, those of the inner frame where the datagram may be VXLAN. The out-parameters are an
  `Endpoints` that every layer hands on; an address that was never written is `none`.
* **Direction** (`reqPatternJudgePktDirection`): which side of the packet the pattern names.

A frame is the list of the captured bytes, so `caplen` is its length. The layers call each other in
a circle (Ethernet, IP, UDP, VXLAN, Ethernet); every round moves the offset on.

Sources without a file are in `req_pattern.c`.
-/

namespace CloudProbe.Worker

open Lib

/-! ## Addresses and endpoints -/

/-- `ip_addr_t`; an address is the number its bytes spell in network order.
Source: `ip.h` -/
inductive IpAddr where
  | v4 (addr : BitVec 32)
  | v6 (addr : BitVec 128)
deriving DecidableEq, Repr

/-- Source: `ip.c` `ip_addr_equal` -/
def ipAddrEqual (a b : IpAddr) : Bool :=
  match a, b with
  | .v4 x, .v4 y => x = y
  | .v6 x, .v6 y => x = y
  | _, _ => false

def ipv4At (frame : List UInt8) (i : ℕ) : IpAddr := .v4 (BitVec.ofNat 32 (u32At frame i))

def ipv6At (frame : List UInt8) (i : ℕ) : IpAddr :=
  .v6 (BitVec.ofNat 128 (ofBe ((frame.drop i).take 16)))

def portAt (frame : List UInt8) (i : ℕ) : UInt16 := UInt16.ofNat (u16At frame i)

/-- The out-parameters `sip`, `sport`, `dip` and `dport` of the extraction.
Source: `req_pattern.c` -/
structure Endpoints where
  sip : Option IpAddr
  sport : UInt16
  dip : Option IpAddr
  dport : UInt16
deriving DecidableEq, Repr

/-- `IPPORT_FLAGS_IP`.
Source: `req_pattern.c` -/
def ipportFlagsIp : ℕ := 0x01

/-- `IPPORT_FLAGS_PORT`.
Source: `req_pattern.c` -/
def ipportFlagsPort : ℕ := 0x02

/-! ## Extraction -/

/-- The loop over the tag stack: the type and the offset after it, `none` when a tag is cut.
Source: `extract_ipport_from_ether_layer` -/
def skipTagStack (frame : List UInt8) (ethType nextDataOffset : ℕ) : Option (ℕ × ℕ) :=
  if isVlanEthertype ethType then
    if frame.length < nextDataOffset + 4 then none
    else skipTagStack frame (u16At frame (nextDataOffset + 2)) (nextDataOffset + 4)
  else some (ethType, nextDataOffset)
termination_by frame.length - nextDataOffset

theorem le_of_skipTagStack {frame : List UInt8} {ethType offset ethType' offset' : ℕ}
    (h : skipTagStack frame ethType offset = some (ethType', offset')) : offset ≤ offset' := by
  fun_induction skipTagStack frame ethType offset with
  | case1 => cases h
  | case2 ethType offset hvlan hcaptured ih =>
    have hle := ih h
    omega
  | case3 ethType offset hvlan =>
    obtain ⟨rfl, rfl⟩ := Prod.mk.inj (Option.some.inj h)
    exact Nat.le_refl _

def extractIpportFromTcpLayer (frame : List UInt8) (dataOffset : ℕ) (out : Endpoints) :
    ℕ × Endpoints :=
  if frame.length < dataOffset + 20 then (0, out)
  else (ipportFlagsPort,
    { out with sport := portAt frame dataOffset, dport := portAt frame (dataOffset + 2) })

mutual

def extractIpportFromEtherLayer (frame : List UInt8) (dataOffset : ℕ) (out : Endpoints) :
    ℕ × Endpoints :=
  if frame.length < dataOffset + etherHeaderLen then (0, out)
  else
    match _htags : skipTagStack frame (u16At frame (dataOffset + 12))
        (dataOffset + etherHeaderLen) with
    | none => (0, out)
    | some (ethType, nextDataOffset) =>
      if ethType = 0x0800 then extractIpportFromIpv4Layer frame nextDataOffset out
      else if ethType = 0x86dd then extractIpportFromIpv6Layer frame nextDataOffset out
      else (0, out)
termination_by 2 * (frame.length - dataOffset)
decreasing_by
  all_goals
    have hle := le_of_skipTagStack _htags
    rw [etherHeaderLen] at *
    omega

def extractIpportFromIpv4Layer (frame : List UInt8) (dataOffset : ℕ) (out : Endpoints) :
    ℕ × Endpoints :=
  if frame.length < dataOffset + 20 then (0, out)
  else
    -- the length of the header is used as it is: an `ihl` below 5 is not refused
    let ipHdrLen := byteAt frame dataOffset % 16 * 4
    let protocol := byteAt frame (dataOffset + 9)
    let out : Endpoints := {
      sip := some (ipv4At frame (dataOffset + 12))
      sport := 0
      dip := some (ipv4At frame (dataOffset + 16))
      dport := 0 }
    if protocol = ipprotoTcp then
      let (flags, out) := extractIpportFromTcpLayer frame (dataOffset + ipHdrLen) out
      (ipportFlagsIp ||| flags, out)
    else if protocol = ipprotoUdp then
      let (flags, out) := extractIpportFromUdpLayer frame (dataOffset + ipHdrLen) out
      (ipportFlagsIp ||| flags, out)
    else (ipportFlagsIp, out)
termination_by 2 * (frame.length - dataOffset) + 1

def extractIpportFromIpv6Layer (frame : List UInt8) (dataOffset : ℕ) (out : Endpoints) :
    ℕ × Endpoints :=
  if frame.length < dataOffset + 40 then (0, out)
  else
    let nexthdr := byteAt frame (dataOffset + 6)
    let out : Endpoints := {
      sip := some (ipv6At frame (dataOffset + 8))
      sport := 0
      dip := some (ipv6At frame (dataOffset + 24))
      dport := 0 }
    if nexthdr = ipprotoTcp then
      let (flags, out) := extractIpportFromTcpLayer frame (dataOffset + 40) out
      (ipportFlagsIp ||| flags, out)
    else if nexthdr = ipprotoUdp then
      let (flags, out) := extractIpportFromUdpLayer frame (dataOffset + 40) out
      (ipportFlagsIp ||| flags, out)
    else (ipportFlagsIp, out)
termination_by 2 * (frame.length - dataOffset) + 1

def extractIpportFromUdpLayer (frame : List UInt8) (dataOffset : ℕ) (out : Endpoints) :
    ℕ × Endpoints :=
  if frame.length < dataOffset + 8 then (0, out)
  else
    let out := { out with
      sport := portAt frame dataOffset
      dport := portAt frame (dataOffset + 2) }
    if 4700 ≤ out.dport ∧ out.dport < 4800 then
      let (flags, out) := extractIpportFromMaybeVxlanLayer frame (dataOffset + 8) out
      (ipportFlagsPort ||| flags, out)
    else (ipportFlagsPort, out)
termination_by 2 * (frame.length - dataOffset)

def extractIpportFromMaybeVxlanLayer (frame : List UInt8) (dataOffset : ℕ) (out : Endpoints) :
    ℕ × Endpoints :=
  if frame.length < dataOffset + 8 + etherHeaderLen + 20 then (0, out)
  else extractIpportFromEtherLayer frame (dataOffset + 8) out
termination_by 2 * (frame.length - dataOffset)

end

/-! ## Matching and direction -/

/-- Source: `Node` -/
inductive Node where
  | host (addr : IpAddr)
  | port (port : UInt16)
  | and (left right : Node)
  | or (left right : Node)
deriving DecidableEq, Repr

def evaluate (ip : IpAddr) (port : UInt16) : Node → Bool
  | .host addr => ipAddrEqual addr ip
  | .port p => p = port
  | .and left right => evaluate ip port left && evaluate ip port right
  | .or left right => evaluate ip port left || evaluate ip port right

/-- `req_pattern_t`: `REQ_PATTERN_TYPE_*` with the matcher of the type.
Source: `req_pattern.h` -/
inductive ReqPattern where
  | none
  | auto (macAddr : Vector UInt8 6)
  | custom (node : Option Node)
deriving DecidableEq, Repr

/-- Without a tree nothing matches.
Source: `req_pattern_custom_match_by_ipport` -/
def reqPatternCustomMatchByIpport (node : Option Node) (ip : IpAddr) (port : UInt16) : Bool :=
  node.any (evaluate ip port)

def reqPatternJudgePktDirection (reqPattern : ReqPattern) (frame : List UInt8) : PktDir :=
  match reqPattern with
  | .none => .noncheck
  | .auto macAddr =>
    if frame.length < etherHeaderLen then .unknown
    else if (frame.drop 6).take 6 = macAddr.toList then .outgoing
    else .incoming
  | .custom node =>
    let (flags, out) := extractIpportFromEtherLayer frame 0 ⟨Option.none, 0, Option.none, 0⟩
    if flags &&& ipportFlagsIp ≠ 0 then
      match out.sip, out.dip with
      | some sip, some dip =>
        if reqPatternCustomMatchByIpport node sip out.sport then .outgoing
        else if reqPatternCustomMatchByIpport node dip out.dport then .incoming
        else .unknown
      -- not reached: the flag is set together with both addresses
      | _, _ => .unknown
    else .unknown

end CloudProbe.Worker
