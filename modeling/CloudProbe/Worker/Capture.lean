import CloudProbe.Worker.OutputBase
import CloudProbe.Worker.Pipeline
import CloudProbe.Worker.ReqPattern
import CloudProbe.Worker.Stats

/-!
# The three capturers

`libpcapDoCapture` takes one packet a call, `pcapFileDoCapture` one packet until the end of the file
or a damaged record, `dpdkDoCapture` a burst. What the system hands to a capturer in one call is its
input; the calls of the two handlers are its output. The DPDK loop computes the direction of a
packet and then passes `PKT_DIR_NONCHECK`.
-/

namespace CloudProbe.Worker

open Lib List

/-! ## What the capturers have in common -/

/-- Source: `stats.h` `capture_stats_t` -/
structure CaptureStats where
  capBytes : BytesStats
  capPackets : PacketsStats
  dropPackets : PacketsStats
  ifdropPackets : PacketsStats
deriving DecidableEq

/-- `bytes_stats_add` and `packets_stats_add` for a captured packet. -/
def CaptureStats.count (st : CaptureStats) (caplen : UInt32) : CaptureStats :=
  { st with
    capBytes := bytesStatsAdd st.capBytes caplen.toUInt64
    capPackets := packetsStatsAdd st.capPackets 1 }

/-- What a call of a capturer does: the calls of the handlers and the log lines in order, and the
number it returns. -/
structure CaptureResult (σ : Type) where
  capturer : σ
  calls : List Captured
  log : List String
  numPkts : ℕ

/-- The direction of a packet; without a pattern nothing is judged.
Source: `libpcap.c` `libpcap_do_capture`, `pcap_file.c` `pcap_file_do_capture` -/
def judgedDirection (reqPattern : Option ReqPattern) (p : Packet) : PktDir :=
  match reqPattern with
  | none => .noncheck
  | some reqPattern => reqPatternJudgePktDirection reqPattern p.data

/-- What `pcap_next_ex` returned: 1 with a packet, 0, `PCAP_ERROR` with the text of `pcap_geterr`,
`PCAP_ERROR_BREAK`, or another code. -/
inductive NextEx where
  | packet (p : Packet)
  | notReady
  | error (text : String)
  | errorBreak
  | other (code : ℤ) (text : String)
deriving DecidableEq

def NextEx.packets : NextEx → List Packet
  | .packet p => [p]
  | _ => []

/-! ## Live capture -/

/-- `struct pcap_stat`: `ps_drop` and `ps_ifdrop`. -/
structure PcapStat where
  psDrop : UInt32
  psIfdrop : UInt32
deriving DecidableEq

/-- Source: `libpcap.h` `libpcap_capturer_t` -/
structure LibpcapCapturer where
  stats : CaptureStats
  interface : String
  netns : String
  reqPattern : Option ReqPattern
  dropStatStarted : Bool
  dropStatPrevTime : ℤ
  prevPsDrop : UInt32
  prevPsIfdrop : UInt32
  pcapNextError : String

/-- What the system says during a call: the result of `pcap_next_ex`, the time the heartbeat handler
reads, `time(NULL)`, and `pcap_stats` when it succeeds. -/
structure LibpcapInput where
  next : NextEx
  heartbeatTime : ℤ
  time : ℤ
  pcapStats : Option PcapStat

/-- `snprintf` into a buffer of `ERROR_BUFFER_SIZE` bytes.
Source: `errorf.h` -/
def cutToErrorBuffer (text : String) : String := String.ofList (text.toList.take 255)

/-- The first error is kept until it is logged.
Source: `libpcap.c` `libpcap_do_capture`, the default branch -/
def LibpcapCapturer.noteError (c : LibpcapCapturer) (text : String) : LibpcapCapturer :=
  let line := "interface=" ++ c.interface ++ ", netns=" ++ c.netns ++ ", pcap_next_ex " ++ text
  if c.pcapNextError = "" then { c with pcapNextError := cutToErrorBuffer line } else c

/-- `DROP_STAT_DUR_SEC`.
Source: `libpcap.c` -/
def dropStatDurSec : ℤ := 2

/-- The second half of a call: the drop counters, and the error noted since the last time.
Source: `libpcap.c` `libpcap_do_capture`, "drop stat" -/
def LibpcapCapturer.dropStat (c : LibpcapCapturer) (now : ℤ) (pcapStats : Option PcapStat) :
    LibpcapCapturer × List String :=
  if ¬ c.dropStatStarted then
    match pcapStats with
    | some stat => ({ c with
        dropStatStarted := true
        prevPsDrop := stat.psDrop
        prevPsIfdrop := stat.psIfdrop
        dropStatPrevTime := now }, [])
    | none => (c, [])
  else if now - c.dropStatPrevTime < dropStatDurSec then (c, [])
  else
    let c := match pcapStats with
      | some stat => { c with
          -- the differences are taken in 32 bits, as the kernel counts
          stats := { c.stats with
            dropPackets := packetsStatsAdd c.stats.dropPackets
              (stat.psDrop - c.prevPsDrop).toUInt64
            ifdropPackets := packetsStatsAdd c.stats.ifdropPackets
              (stat.psIfdrop - c.prevPsIfdrop).toUInt64 }
          prevPsDrop := stat.psDrop
          prevPsIfdrop := stat.psIfdrop
          dropStatPrevTime := now }
      | none => c
    if c.pcapNextError ≠ "" then ({ c with pcapNextError := "" }, [c.pcapNextError]) else (c, [])

/-- Source: `libpcap.c` `libpcap_do_capture` -/
def libpcapDoCapture (c : LibpcapCapturer) (i : LibpcapInput) : CaptureResult LibpcapCapturer :=
  match i.next with
  | .packet p =>
    let (c', log) := { c with stats := c.stats.count p.hdr.caplen }.dropStat p.hdr.ts.sec
      i.pcapStats
    ⟨c', [.packet p (judgedDirection c.reqPattern p)], log, 1⟩
  | .notReady =>
    let (c', log) := c.dropStat i.time i.pcapStats
    ⟨c', [.heartbeat i.heartbeatTime], log, 0⟩
  | .error text =>
    let (c', log) := (c.noteError ("error: " ++ text)).dropStat i.time i.pcapStats
    ⟨c', [], log, 0⟩
  | .errorBreak =>
    let (c', log) := (c.noteError ("error_code: " ++ toString (-2 : ℤ))).dropStat i.time
      i.pcapStats
    ⟨c', [], log, 0⟩
  | .other code _ =>
    let (c', log) := (c.noteError ("error_code: " ++ toString code)).dropStat i.time i.pcapStats
    ⟨c', [], log, 0⟩

/-! ## Capture files -/

/-- Source: `pcap_file.h` `pcap_file_capturer_t` -/
structure PcapFileCapturer where
  stats : CaptureStats
  reqPattern : Option ReqPattern
  eof : Bool

/-- What the system says during a call: what `pcap_next_ex` returns if it is called, and the time
the heartbeat handler reads. -/
structure PcapFileInput where
  next : NextEx
  heartbeatTime : ℤ

/-- The file is given up after a damaged record.
Source: `pcap_file.c` `pcap_file_do_capture`, the default branch -/
def PcapFileCapturer.giveUp (c : PcapFileCapturer) (i : PcapFileInput) (text : String) :
    CaptureResult PcapFileCapturer :=
  ⟨{ c with eof := true }, [.heartbeat i.heartbeatTime],
    ["read pcap file error: " ++ text ++ "; skip the rest of the file"], 0⟩

/-- Source: `pcap_file.c` `pcap_file_do_capture` -/
def pcapFileDoCapture (c : PcapFileCapturer) (i : PcapFileInput) :
    CaptureResult PcapFileCapturer :=
  if c.eof then ⟨c, [.heartbeat i.heartbeatTime], [], 0⟩
  else
    match i.next with
    | .packet p =>
      ⟨{ c with stats := c.stats.count p.hdr.caplen },
        [.packet p (judgedDirection c.reqPattern p)], [], 1⟩
    | .errorBreak =>
      ⟨{ c with eof := true }, [.heartbeat i.heartbeatTime], ["end of file"], 0⟩
    | .notReady => c.giveUp i ""
    | .error text => c.giveUp i text
    | .other _ text => c.giveUp i text

/-! ## DPDK -/

/-- A packet of a burst: the bytes of its segments.
Source: `rte_mbuf` -/
structure Mbuf where
  data : List UInt8
  length_lt : data.length < UInt32.size

/-- `rte_pktmbuf_pkt_len`. -/
def Mbuf.pktLen (m : Mbuf) : UInt32 := UInt32.ofNat m.data.length

/-- The packet the capturer makes of it: at most `snaplen` bytes, with the time of the burst.
Source: `dpdk/pdump.c` `dpdk_do_capture` -/
def Mbuf.packet (m : Mbuf) (snaplen : UInt32) (ts : Timeval) : Packet where
  hdr := ⟨ts, if m.pktLen < snaplen then m.pktLen else snaplen, m.pktLen⟩
  data := m.data.take (if m.pktLen < snaplen then m.pktLen else snaplen).toNat
  data_length := by
    have hlen : m.pktLen.toNat = m.data.length := UInt32.toNat_ofNat_of_lt' m.length_lt
    rw [length_take, ← hlen]
    split
    · exact Nat.min_self _
    · next h => exact Nat.min_eq_left (Nat.le_of_not_lt h)

/-- Source: `dpdk/pdump.h` `dpdk_capturer_t` -/
structure DpdkCapturer where
  stats : CaptureStats
  reqPattern : Option ReqPattern
  snaplen : UInt32

/-- `BURST_SIZE`.
Source: `dpdk/pdump.c` -/
def burstSize : ℕ := 32

/-- What the system says during a call: the burst of `rte_ring_sc_dequeue_burst`, its time, and the
time the heartbeat handler reads. -/
structure DpdkInput where
  pkts : List Mbuf
  gettimeofday : Timeval
  heartbeatTime : ℤ
  length_pkts : pkts.length ≤ burstSize

/-- The body of the loop over a burst. The direction is judged and not used: the handler gets
`PKT_DIR_NONCHECK`.
Source: `dpdk/pdump.c` `dpdk_do_capture` -/
def DpdkCapturer.handOver (c : DpdkCapturer) (ts : Timeval) (acc : CaptureStats × List Captured)
    (m : Mbuf) : CaptureStats × List Captured :=
  let p := m.packet c.snaplen ts
  let stats := acc.1.count p.hdr.caplen
  let _direction := judgedDirection c.reqPattern p
  (stats, acc.2 ++ [.packet p .noncheck])

/-- Source: `dpdk/pdump.c` `dpdk_do_capture` -/
def dpdkDoCapture (c : DpdkCapturer) (i : DpdkInput) : CaptureResult DpdkCapturer :=
  if i.pkts.length = 0 then ⟨c, [.heartbeat i.heartbeatTime], [], 0⟩
  else
    let (stats, calls) := i.pkts.foldl (c.handOver i.gettimeofday) (c.stats, [])
    ⟨{ c with stats := stats }, calls, [], i.pkts.length⟩

/-! ## What is handed over -/

/-- The packets a list of handler calls hands over, with their directions. -/
def handedOver (calls : List Captured) : List Handed :=
  calls.filterMap fun
    | .packet p direct => some ⟨p, direct⟩
    | .heartbeat _ => none

section Runs

variable {σ ι : Type}

/-- The packets handed over by call after call of a capturer. -/
def handedIn (doCapture : σ → ι → CaptureResult σ) : σ → List ι → List Handed :=
  outputs (fun c i => (doCapture c i).capturer) fun c i => handedOver (doCapture c i).calls

/-- The packets captured in call after call, when `captured` are those of one call. -/
def capturedIn (doCapture : σ → ι → CaptureResult σ) (captured : σ → ι → List Packet) :
    σ → List ι → List Packet :=
  outputs (fun c i => (doCapture c i).capturer) captured

end Runs

def LibpcapCapturer.captured (_ : LibpcapCapturer) (i : LibpcapInput) : List Packet :=
  i.next.packets

/-- The packet of a call on a file, which is not read after its end. -/
def PcapFileCapturer.captured (c : PcapFileCapturer) (i : PcapFileInput) : List Packet :=
  if c.eof then [] else i.next.packets

def DpdkCapturer.captured (c : DpdkCapturer) (i : DpdkInput) : List Packet :=
  i.pkts.map fun m => m.packet c.snaplen i.gettimeofday

def judged (reqPattern : Option ReqPattern) (p : Packet) : Handed :=
  ⟨p, judgedDirection reqPattern p⟩

/-! ### One call -/

variable (c : LibpcapCapturer)

@[simp] theorem LibpcapCapturer.reqPattern_dropStat (now : ℤ) (pcapStats : Option PcapStat) :
    (c.dropStat now pcapStats).1.reqPattern = c.reqPattern := by
  unfold LibpcapCapturer.dropStat
  cases pcapStats <;> (simp only; split_ifs <;> rfl)

@[simp] theorem LibpcapCapturer.reqPattern_noteError (text : String) :
    (c.noteError text).reqPattern = c.reqPattern := by
  unfold LibpcapCapturer.noteError
  split_ifs <;> rfl

theorem libpcapDoCapture_reqPattern (i : LibpcapInput) :
    (libpcapDoCapture c i).capturer.reqPattern = c.reqPattern := by
  unfold libpcapDoCapture
  cases i.next <;> simp

theorem libpcapDoCapture_handedOver (i : LibpcapInput) :
    handedOver (libpcapDoCapture c i).calls = (c.captured i).map (judged c.reqPattern) := by
  unfold libpcapDoCapture LibpcapCapturer.captured
  cases i.next <;> rfl

theorem pcapFileDoCapture_reqPattern (c : PcapFileCapturer) (i : PcapFileInput) :
    (pcapFileDoCapture c i).capturer.reqPattern = c.reqPattern := by
  unfold pcapFileDoCapture
  split_ifs
  · rfl
  · cases i.next <;> rfl

theorem pcapFileDoCapture_handedOver (c : PcapFileCapturer) (i : PcapFileInput) :
    handedOver (pcapFileDoCapture c i).calls = (c.captured i).map (judged c.reqPattern) := by
  unfold pcapFileDoCapture PcapFileCapturer.captured
  split_ifs
  · rfl
  · cases i.next <;> rfl

theorem DpdkCapturer.foldl_handOver (c : DpdkCapturer) (ts : Timeval) (pkts : List Mbuf)
    (acc : CaptureStats × List Captured) :
    (pkts.foldl (c.handOver ts) acc).2 =
      acc.2 ++ pkts.map fun m => .packet (m.packet c.snaplen ts) .noncheck := by
  induction pkts generalizing acc with
  | nil => rw [foldl_nil, map_nil, append_nil]
  | cons m pkts ih =>
    rw [foldl_cons, ih, map_cons, DpdkCapturer.handOver, append_assoc, singleton_append]

theorem dpdkDoCapture_handedOver (c : DpdkCapturer) (i : DpdkInput) :
    handedOver (dpdkDoCapture c i).calls = (c.captured i).map fun p => ⟨p, .noncheck⟩ := by
  unfold dpdkDoCapture DpdkCapturer.captured
  simp only
  split_ifs with hempty
  · rw [length_eq_zero_iff.mp hempty]
    rfl
  · rw [DpdkCapturer.foldl_handOver, nil_append, handedOver, filterMap_map, map_map]
    exact congrFun (filterMap_eq_map
      (f := fun m : Mbuf => (⟨m.packet c.snaplen i.gettimeofday, .noncheck⟩ : Handed))) _

/-! ### Runs -/

theorem judgedDirection_eq_noncheck_iff (reqPattern : Option ReqPattern) (p : Packet) :
    judgedDirection reqPattern p = .noncheck ↔ reqPattern = none ∨ reqPattern = some .none := by
  rcases reqPattern with _ | pattern
  · simp [judgedDirection]
  · cases pattern with
    | none => simp [judgedDirection, reqPatternJudgePktDirection]
    | auto macAddr =>
      simp only [judgedDirection, reqPatternJudgePktDirection]
      split_ifs <;> simp
    | custom node =>
      simp only [judgedDirection, reqPatternJudgePktDirection]
      split_ifs
      · split
        · split_ifs <;> simp
        · simp
      · simp

/-- Not judging agrees with judging only without a pattern. -/
theorem map_noncheck_eq_judged_iff (reqPattern : Option ReqPattern) (ps : List Packet) :
    ps.map (fun p => (⟨p, .noncheck⟩ : Handed)) = ps.map (judged reqPattern) ↔
      ps = [] ∨ reqPattern = none ∨ reqPattern = some .none := by
  cases ps with
  | nil => simp
  | cons p ps =>
    constructor
    · intro h
      have hhead : (⟨p, .noncheck⟩ : Handed) = judged reqPattern p := (List.cons.inj h).1
      have hdirect : PktDir.noncheck = judgedDirection reqPattern p :=
        congrArg Handed.direct hhead
      exact .inr ((judgedDirection_eq_noncheck_iff reqPattern p).mp hdirect.symm)
    · rintro (h | h)
      · cases h
      · refine map_congr_left fun q _ => ?_
        rw [judged, (judgedDirection_eq_noncheck_iff reqPattern q).mpr h]

theorem handedIn_eq_judged {σ ι : Type} {doCapture : σ → ι → CaptureResult σ}
    {captured : σ → ι → List Packet} {pattern : σ → Option ReqPattern}
    (hpattern : ∀ c i, pattern (doCapture c i).capturer = pattern c)
    (hcall : ∀ c i, handedOver (doCapture c i).calls = (captured c i).map (judged (pattern c)))
    (c : σ) (is : List ι) :
    handedIn doCapture c is = (capturedIn doCapture captured c is).map (judged (pattern c)) := by
  refine outputs_eq_map (P := fun c' => pattern c' = pattern c) ?_ ?_ rfl is
  · intro c' i hc'
    rw [hpattern, hc']
  · intro c' i hc'
    rw [hcall, hc']

/-- **The three capturers hand over the same exactly when there is nothing to judge**: nothing was
captured or there is no pattern. Live capture and files always do. -/
theorem capturers_agree_iff (d : DpdkCapturer) (l : LibpcapCapturer) (f : PcapFileCapturer)
    (hl : l.reqPattern = d.reqPattern) (hf : f.reqPattern = d.reqPattern) (ps : List Packet)
    (ds : List DpdkInput) (ls : List LibpcapInput) (fs : List PcapFileInput)
    (hds : capturedIn dpdkDoCapture DpdkCapturer.captured d ds = ps)
    (hls : capturedIn libpcapDoCapture LibpcapCapturer.captured l ls = ps)
    (hfs : capturedIn pcapFileDoCapture PcapFileCapturer.captured f fs = ps) :
    (handedIn dpdkDoCapture d ds = ps.map (judged d.reqPattern) ∧
        handedIn libpcapDoCapture l ls = ps.map (judged d.reqPattern) ∧
        handedIn pcapFileDoCapture f fs = ps.map (judged d.reqPattern) ↔
      ps = [] ∨ d.reqPattern = none ∨ d.reqPattern = some .none) ∧
    handedIn libpcapDoCapture l ls = ps.map (judged d.reqPattern) ∧
    handedIn pcapFileDoCapture f fs = ps.map (judged d.reqPattern) := by
  have hlibpcap : handedIn libpcapDoCapture l ls = ps.map (judged d.reqPattern) := by
    rw [← hls, ← hl]
    exact handedIn_eq_judged libpcapDoCapture_reqPattern libpcapDoCapture_handedOver l ls
  have hfile : handedIn pcapFileDoCapture f fs = ps.map (judged d.reqPattern) := by
    rw [← hfs, ← hf]
    exact handedIn_eq_judged pcapFileDoCapture_reqPattern pcapFileDoCapture_handedOver f fs
  have hdpdk : handedIn dpdkDoCapture d ds = ps.map fun p => ⟨p, .noncheck⟩ := by
    rw [← hds]
    exact outputs_eq_map (P := fun _ => True) (fun _ _ _ => trivial)
      (fun c i _ => dpdkDoCapture_handedOver c i) trivial ds
  refine ⟨⟨fun h => ?_, fun h => ⟨?_, hlibpcap, hfile⟩⟩, hlibpcap, hfile⟩
  · exact (map_noncheck_eq_judged_iff d.reqPattern ps).mp (hdpdk.symm.trans h.1)
  · exact hdpdk.trans ((map_noncheck_eq_judged_iff d.reqPattern ps).mpr h)

/-! ### The same packets in all three -/

def CaptureStats.zero : CaptureStats :=
  let packets : PacketsStats := ⟨0, 0, petaInPackets_pos⟩
  ⟨⟨0, 0, eibInBytes_pos⟩, packets, packets, packets⟩

/-- An Ethernet header with source address 00:00:00:00:00:00. -/
def bareFrame : Mbuf := ⟨List.replicate 14 0, by decide⟩

/-- A frame that is longer than a `snaplen` of 16. -/
def longFrame : Mbuf := ⟨List.replicate 20 1, by decide⟩

def dpdkOf (reqPattern : Option ReqPattern) : DpdkCapturer := ⟨.zero, reqPattern, 16⟩

def libpcapOf (reqPattern : Option ReqPattern) : LibpcapCapturer :=
  ⟨.zero, "eth0", "", reqPattern, false, 0, 0, 0, ""⟩

def pcapFileOf (reqPattern : Option ReqPattern) : PcapFileCapturer := ⟨.zero, reqPattern, false⟩

/-- Without a pattern all three hand over three packets: in two bursts, live with a pause, and from
a file. -/
theorem capturers_agree_without_pattern :
    let p := bareFrame.packet 16 ⟨1, 0⟩
    let q := longFrame.packet 16 ⟨1, 0⟩
    let r := bareFrame.packet 16 ⟨2, 0⟩
    let ds : List DpdkInput := [⟨[bareFrame, longFrame], ⟨1, 0⟩, 1, by decide⟩,
      ⟨[bareFrame], ⟨2, 0⟩, 2, by decide⟩]
    let ls : List LibpcapInput := [⟨.packet p, 1, 1, none⟩, ⟨.packet q, 1, 1, none⟩,
      ⟨.notReady, 1, 1, none⟩, ⟨.packet r, 2, 2, none⟩]
    let fs : List PcapFileInput := [⟨.packet p, 1⟩, ⟨.packet q, 1⟩, ⟨.packet r, 2⟩,
      ⟨.errorBreak, 2⟩, ⟨.packet p, 2⟩]
    let handed := [⟨p, .noncheck⟩, ⟨q, .noncheck⟩, ⟨r, .noncheck⟩]
    handedIn dpdkDoCapture (dpdkOf (some .none)) ds = handed ∧
      handedIn libpcapDoCapture (libpcapOf (some .none)) ls = handed ∧
      handedIn pcapFileDoCapture (pcapFileOf (some .none)) fs = handed := by
  intro p q r ds ls fs handed
  exact (capturers_agree_iff (dpdkOf (some .none)) (libpcapOf (some .none))
    (pcapFileOf (some .none)) rfl rfl [p, q, r] ds ls fs rfl rfl rfl).1.mpr (.inr (.inr rfl))

/-- Live capture and files hand over the direction outgoing, DPDK does not. -/
theorem dpdk_drops_direction :
    let pattern : Option ReqPattern := some (.auto (Vector.replicate 6 0))
    let p := bareFrame.packet 16 ⟨1, 0⟩
    let ds : List DpdkInput := [⟨[bareFrame], ⟨1, 0⟩, 1, by decide⟩]
    capturedIn dpdkDoCapture DpdkCapturer.captured (dpdkOf pattern) ds = [p] ∧
      judged pattern p = ⟨p, .outgoing⟩ ∧
      handedIn libpcapDoCapture (libpcapOf pattern) [⟨.packet p, 1, 1, none⟩] = [⟨p, .outgoing⟩] ∧
      handedIn pcapFileDoCapture (pcapFileOf pattern) [⟨.packet p, 1⟩] = [⟨p, .outgoing⟩] ∧
      handedIn dpdkDoCapture (dpdkOf pattern) ds = [⟨p, .noncheck⟩] := by
  decide

end CloudProbe.Worker
