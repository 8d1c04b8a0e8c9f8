import CloudProbe.Worker.Checksum
import CloudProbe.Worker.Datagram
import CloudProbe.Worker.PacketSplit

/-!
# The vxlan output

* **The output** (`VxlanOutput`): of the send buffer only the part after the VXLAN header is kept,
  in `area`; the header is written anew for each datagram. `area` holds the bytes written so far,
  and the zeros of `calloc` follow them.
* **Sending** (`doSendPacket`, `sendWholeOrSplit`, `vxlanSendPacket`): `log` lists all calls of
  `sendto` with their results.
* **The datagrams of a packet** (`vxlanFrames`, `vxlanDatagrams`): one that passes the checks is
  forwarded exactly when they were sent in full, each once and in order (`vxlanSendPacket_stats`).

Sources without a file are in `output_vxlan.c`.
-/

namespace CloudProbe.Worker

open Lib List

def vxlanMaxFrameLen : ℕ := 65535

/-- `vxlan_options_t`; the address, the device and the path MTU setting only matter to the socket.
Source: `output_vxlan.h` -/
structure VxlanOptions where
  captureTime : Bool
  vniVersion : UInt8
  vni : UInt32
  rateLimitMbps : UInt64
  slice : ℤ
  maxPayloadSize : UInt16
  recalculateChecksum : Bool
deriving DecidableEq

/-- `vxlan_output_t`.
Source: `output_vxlan.h` -/
structure VxlanOutput where
  stats : OutputStats
  rateLimitMbps : UInt64
  throttle : TokenBucket
  slice : ℤ
  vniVersion : UInt8
  vni : UInt32
  captureTime : Bool
  /-- `buf` after the VXLAN header -/
  area : List UInt8
  maxPayloadSize : UInt16
  recalculateChecksum : Bool
  errorInfo : SendErrorInfo
  log : List Attempt
deriving DecidableEq

def vxlanOutputNew (opts : VxlanOptions) (stats : OutputStats) : VxlanOutput where
  stats := stats
  rateLimitMbps := opts.rateLimitMbps
  throttle := throttleNew opts.rateLimitMbps
  slice := opts.slice
  vniVersion := opts.vniVersion
  vni := opts.vni
  captureTime := opts.captureTime
  area := []
  maxPayloadSize := opts.maxPayloadSize
  recalculateChecksum := opts.recalculateChecksum
  errorInfo := ⟨0, 0, 0, 0⟩
  log := []

/-! ## One datagram -/

/-- `vx_flags` on the wire.
Source: `vxlan_output_new` -/
def vxlanFlags : List UInt8 := [0x08, 0, 0, 0]

/-- Source: `rte_raw_cksum`; bytes past the end of `buf` are zero -/
def rteRawCksum (buf : List UInt8) (len : ℕ) : UInt16 :=
  cksumFold (cksumScalar 0x4a3b2d1c ((List.range len).map fun i => buf.getD i 0))

/-- The first three bytes of `vx_vni` for version 1: with a direction, `pa_tag_t` takes the high
bits of the tag.
Source: `do_send_packet` -/
def paTag (vni : UInt32) (direct : PktDir) : List UInt8 :=
  let tag := [UInt8.ofNat (vni.toNat / 65536), UInt8.ofNat (vni.toNat / 256), UInt8.ofNat vni.toNat]
  if direct = .noncheck then tag
  else
    [UInt8.ofNat ((direct.toInt % 16).toNat * 16), UInt8.ofNat (vni.toNat / 256 % 16),
      UInt8.ofNat vni.toNat]

/-- `vx_vni` on the wire; the check byte of version 1 covers the VXLAN header and the first 34 bytes
after it.
Source: `do_send_packet` -/
def vxlanVni (vniVersion : UInt8) (vni : UInt32) (direct : PktDir) (area : List UInt8) :
    List UInt8 :=
  if vniVersion = 1 then
    let tag := paTag vni direct
    tag ++ [(rteRawCksum (vxlanFlags ++ tag ++ [0] ++ area) 42).toUInt8]
  else be 4 (UInt32.ofInt (vni.toNat + direct.toInt)).toNat

/-- The bytes after the frame, when the capture time is sent along.
Source: `do_send_packet` -/
def captureTrailer (captureTime : Bool) (ts : Timeval) : List UInt8 :=
  if captureTime then
    be 4 (UInt32.ofInt ts.sec).toNat ++ be 4 (UInt32.ofInt (ts.usec * 1000)).toNat
  else []

/-- The send buffer after the VXLAN header once a frame has been copied to it.
Source: `do_send_packet` -/
def VxlanOutput.fill (o : VxlanOutput) (ts : Timeval) (frame : List UInt8) : List UInt8 :=
  patch o.area 0 (frame ++ captureTrailer o.captureTime ts)

/-- The datagram of a frame.
Source: `do_send_packet` -/
def VxlanOutput.datagram (o : VxlanOutput) (ts : Timeval) (frame : List UInt8) (direct : PktDir) :
    List UInt8 :=
  vxlanFlags ++ vxlanVni o.vniVersion o.vni direct (o.fill ts frame) ++
    (o.fill ts frame).take (frame.length + (captureTrailer o.captureTime ts).length)

/-- Source: `do_send_packet`; `true` stands for 0 -/
def doSendPacket (env : Env) (o : VxlanOutput) (ts : Timeval) (frame : List UInt8)
    (direct : PktDir) : VxlanOutput × Bool :=
  let datagram := o.datagram ts frame direct
  let sent := sendtoRetry env datagram maxRetries o.log
  ({ o with
      area := o.fill ts frame
      log := sent.2
      errorInfo := o.errorInfo.record datagram.length sent.1 },
    Attempt.full (datagram, sent.1))

/-! ## Whole packets and fragments -/

/-- The loop over the fragments: `n` are left, the next is `i`.
Source: `send_whole_or_split` -/
def sendFragments (env : Env) (r : PacketParseResult) (data : List UInt8) (ts : Timeval)
    (direct : PktDir) : ℕ → ℕ → VxlanOutput → VxlanOutput × Bool
  | 0, _, o => (o, true)
  | n + 1, i, o =>
    match buildFragment env.sse2 r data i o.maxPayloadSize.toNat o.recalculateChecksum with
    | none => (o, false)
    | some frame =>
      let sent := doSendPacket env o ts frame direct
      if sent.2 then sendFragments env r data ts direct n (i + 1) sent.1 else (sent.1, false)

def sendWholeOrSplit (env : Env) (o : VxlanOutput) (h : Handed) (frameLen : ℕ) :
    VxlanOutput × Bool :=
  let ts := h.packet.hdr.ts
  let frame := h.packet.data.take frameLen
  let whole := doSendPacket env o ts frame h.direct
  if o.maxPayloadSize = 0 ∨ frameLen ≤ o.maxPayloadSize.toNat then whole
  else
    match parsePacket frame with
    | none => whole
    | some r =>
      let count := calculateFragmentCount r o.maxPayloadSize.toNat
      if count = 1 then whole
      else sendFragments env r h.packet.data ts h.direct count 0 o

/-- The bytes a packet counts with.
Source: `vxlan_send_packet`, `frame_len` -/
def vxlanFrameLen (slice : ℤ) (p : Packet) : ℕ := outputFrameLen p.hdr.caplen slice vxlanMaxFrameLen

def vxlanSendPacket (env : Env) (o : VxlanOutput) (h : Handed) : VxlanOutput × ℤ :=
  let ts := h.packet.hdr.ts
  let frameLen := vxlanFrameLen o.slice h.packet
  let count (o : VxlanOutput) (b : Bucket) : VxlanOutput :=
    { o with stats := o.stats.count b (UInt64.ofNat frameLen) 1 }
  let checked := passChecks o.rateLimitMbps o.throttle frameLen ts h.direct
  let o := { o with throttle := checked.1 }
  match checked.2 with
  | some bucket => (count o bucket, -1)
  | none =>
    let o := { o with errorInfo := o.errorInfo.check ts.sec }
    let sent := sendWholeOrSplit env o h frameLen
    if sent.2 then (count sent.1 .fwd, 0) else (count sent.1 .errorDrop, -1)

/-! ## The datagrams of a packet -/

/-- The frames sent for a packet: the whole frame, or all its fragments. -/
def vxlanFrames (sse2 : Bool) (o : VxlanOutput) (p : Packet) : List (List UInt8) :=
  let frame := p.data.take (vxlanFrameLen o.slice p)
  let size := o.maxPayloadSize.toNat
  if o.maxPayloadSize = 0 ∨ vxlanFrameLen o.slice p ≤ size then [frame]
  else
    match parsePacket frame with
    | none => [frame]
    | some r =>
      let count := calculateFragmentCount r size
      if count = 1 then [frame]
      else (List.range count).filterMap fun i =>
        buildFragment sse2 r p.data i size o.recalculateChecksum

/-- The datagrams of a list of frames. Each is built in the send buffer left by the one before. -/
def VxlanOutput.datagrams (o : VxlanOutput) (ts : Timeval) (direct : PktDir) :
    List (List UInt8) → List (List UInt8)
  | [] => []
  | frame :: frames =>
    o.datagram ts frame direct ::
      VxlanOutput.datagrams { o with area := o.fill ts frame } ts direct frames

/-- The datagrams that have to be sent for a packet. -/
def vxlanDatagrams (sse2 : Bool) (o : VxlanOutput) (h : Handed) : List (List UInt8) :=
  o.datagrams h.packet.hdr.ts h.direct (vxlanFrames sse2 o h.packet)

/-- Frames sent one after the other until one is not sent in full. -/
def sendFrames (env : Env) (ts : Timeval) (direct : PktDir) :
    List (List UInt8) → VxlanOutput → VxlanOutput × Bool
  | [], o => (o, true)
  | frame :: frames, o =>
    let sent := doSendPacket env o ts frame direct
    if sent.2 then sendFrames env ts direct frames sent.1 else (sent.1, false)

/-- The parts of the output that decide about the datagrams, and the counters, are not touched by
sending. -/
structure VxlanOutput.Same (o o' : VxlanOutput) : Prop where
  stats : o'.stats = o.stats
  vniVersion : o'.vniVersion = o.vniVersion
  vni : o'.vni = o.vni
  captureTime : o'.captureTime = o.captureTime
  area : o'.area = o.area

theorem VxlanOutput.datagrams_congr {o o' : VxlanOutput} (h : o.Same o') (ts : Timeval)
    (direct : PktDir) (frames : List (List UInt8)) :
    o'.datagrams ts direct frames = o.datagrams ts direct frames := by
  induction frames generalizing o o' with
  | nil => rfl
  | cons frame frames ih =>
    have hfill : o'.fill ts frame = o.fill ts frame := by
      rw [fill, fill, h.area, h.captureTime]
    have hdatagram : o'.datagram ts frame direct = o.datagram ts frame direct := by
      rw [datagram, datagram, hfill, h.vniVersion, h.vni, h.captureTime]
    rw [datagrams, datagrams, hdatagram, hfill]
    congr 1
    apply ih
    exact ⟨h.stats, h.vniVersion, h.vni, h.captureTime, rfl⟩

/-- The datagrams are sent in order: some are sent in full, and after one that is not nothing is
sent any more. The result says whether all were sent; not all were only when the last call of
`sendto` did not take its datagram in full. -/
def SentInOrder (env : Env) (o : VxlanOutput) (datagrams : List (List UInt8))
    (sent : VxlanOutput × Bool) : Prop :=
  ∃ calls k, sent.1.log = o.log ++ calls ∧ k ≤ datagrams.length ∧
    fullySent calls = datagrams.take k ∧ (∀ c ∈ calls, c.1 ∈ datagrams.take (k + 1)) ∧
    (sent.2 = true ↔ k = datagrams.length) ∧
    (∀ j c, calls[j]? = some c → c.2 = env.sendto (o.log.length + j)) ∧
    (k < datagrams.length → ∃ c, calls.getLast? = some c ∧ c.full = false)

variable (env : Env) (ts : Timeval) (direct : PktDir) (frames : List (List UInt8)) (o : VxlanOutput)

/-- The datagrams of the frames are sent in order, up to the first failure. -/
theorem sendFrames_inOrder :
    SentInOrder env o (o.datagrams ts direct frames) (sendFrames env ts direct frames o) := by
  induction frames generalizing o with
  | nil =>
    exact ⟨[], 0, (append_nil _).symm, Nat.zero_le _, rfl, by simp, by simp [sendFrames,
      VxlanOutput.datagrams], by simp, fun h => absurd h (Nat.lt_irrefl _)⟩
  | cons frame frames ih =>
    obtain ⟨calls, h⟩ := sendtoRetry_calls env (o.datagram ts frame direct) maxRetries o.log
    obtain ⟨sent, hsent⟩ : ∃ sent, sent = doSendPacket env o ts frame direct := ⟨_, rfl⟩
    have hsame : ({ o with area := o.fill ts frame } : VxlanOutput).Same sent.1 := by
      rw [hsent]
      exact ⟨rfl, rfl, rfl, rfl, rfl⟩
    have hsentLog : sent.1.log = o.log ++ calls := by rw [hsent]; exact h.logged
    have hsentFull : fullySent calls =
        if sent.2 then [o.datagram ts frame direct] else [] := by rw [hsent]; exact h.full
    simp only [sendFrames, VxlanOutput.datagrams, ← hsent]
    split_ifs with hok
    · obtain ⟨rest, k, hrest, hk, hprefix, hmem, hiff, hresults, hlast⟩ := ih sent.1
      rw [VxlanOutput.datagrams_congr hsame] at hk hprefix hmem hiff hlast
      rw [if_pos hok] at hsentFull
      refine ⟨calls ++ rest, k + 1, ?_, ?_, ?_, ?_, ?_, ?_, ?_⟩
      · rw [hrest, hsentLog, append_assoc]
      · rw [length_cons]
        omega
      · rw [fullySent_append, hsentFull, hprefix, take_succ_cons, singleton_append]
      · intro c hc
        rw [take_succ_cons]
        rcases mem_append.mp hc with hc | hc
        · exact h.same c hc ▸ .head _
        · exact .tail _ (hmem c hc)
      · rw [hiff, length_cons, Nat.add_right_cancel_iff]
      · intro j c hc
        rw [List.getElem?_append] at hc
        split_ifs at hc with hj
        · exact h.results j c hc
        · rw [hresults _ c hc, hsentLog, length_append]
          congr 1
          omega
      · intro hless
        rw [length_cons] at hless
        obtain ⟨c, hc, hnot⟩ := hlast (by omega)
        exact ⟨c, by rw [List.getLast?_append, hc]; rfl, hnot⟩
    · rw [if_neg hok] at hsentFull
      refine ⟨calls, 0, hsentLog, Nat.zero_le _, hsentFull, ?_, by simp, h.results, fun _ =>
        ⟨_, h.last, ?_⟩⟩
      · intro c hc
        rw [h.same c hc, take_succ_cons]
        exact .head _
      · rw [hsent] at hok
        exact Bool.eq_false_of_not_eq_true hok

theorem sendFrames_stats : (sendFrames env ts direct frames o).1.stats = o.stats := by
  induction frames generalizing o with
  | nil => rfl
  | cons frame frames ih =>
    simp only [sendFrames]
    split_ifs
    · exact ih _
    · rfl

/-- **Frames one after the other** are all sent exactly when every datagram was sent in full. -/
theorem sendFrames_log :
    (sendFrames env ts direct frames o).1.stats = o.stats ∧
      ∃ calls, (sendFrames env ts direct frames o).1.log = o.log ++ calls ∧
        ((sendFrames env ts direct frames o).2 = true ↔
          fullySent calls = o.datagrams ts direct frames) := by
  obtain ⟨calls, k, hlog, hk, hprefix, -, hiff, -⟩ := sendFrames_inOrder env ts direct frames o
  refine ⟨sendFrames_stats env ts direct frames o, calls, hlog, ?_⟩
  rw [hiff, hprefix, take_eq_self_iff]
  omega

/-- **The loop lemma**: fragments are sent as frames. -/
theorem sendFragments_eq (r : PacketParseResult) (data : List UInt8) (ts : Timeval)
    (direct : PktDir) (n i : ℕ) (o : VxlanOutput)
    (hbuild : ∀ j < i + n, (buildFragment env.sse2 r data j o.maxPayloadSize.toNat
      o.recalculateChecksum).isSome = true) :
    sendFragments env r data ts direct n i o =
      sendFrames env ts direct ((List.range' i n).filterMap fun j =>
        buildFragment env.sse2 r data j o.maxPayloadSize.toNat o.recalculateChecksum) o := by
  induction n generalizing i o with
  | zero => rfl
  | succ n ih =>
    obtain ⟨frame, hframe⟩ := Option.isSome_iff_exists.mp (hbuild i (by omega))
    simp only [sendFragments, range'_succ, filterMap_cons, hframe, sendFrames]
    split_ifs
    · apply ih
      intro j hj
      exact hbuild j (by omega)
    · rfl

theorem sendFrames_singleton (frame : List UInt8) (o : VxlanOutput) :
    sendFrames env ts direct [frame] o = doSendPacket env o ts frame direct := by
  simp only [sendFrames]
  split_ifs with hok
  · exact Prod.ext rfl hok.symm
  · exact Prod.ext rfl (Bool.eq_false_of_not_eq_true hok).symm

theorem sendWholeOrSplit_eq (h : Handed) :
    sendWholeOrSplit env o h (vxlanFrameLen o.slice h.packet) =
      sendFrames env h.packet.hdr.ts h.direct (vxlanFrames env.sse2 o h.packet) o := by
  simp only [sendWholeOrSplit, vxlanFrames]
  split_ifs with hsize
  · rw [sendFrames_singleton]
  · cases hparse : parsePacket (h.packet.data.take (vxlanFrameLen o.slice h.packet)) with
    | none => simp only [sendFrames_singleton]
    | some r =>
      simp only
      split_ifs with hone
      · rw [sendFrames_singleton]
      · rw [range_eq_range']
        apply sendFragments_eq
        intro j hj
        exact buildFragment_isSome _ _ _ _ hone (by omega)

/-! ## What a packet counts as -/

/-- The log of the `sendto` calls made for a packet. -/
def vxlanCalls (env : Env) (o : VxlanOutput) (h : Handed) : List Attempt :=
  (vxlanSendPacket env o h).1.log.drop o.log.length

/-- The bucket of a packet: it is forwarded when its direction is known, the rate limit grants it
and each of its datagrams was sent in full. -/
def vxlanBucket (env : Env) (o : VxlanOutput) (h : Handed) : Bucket :=
  outcomeBucket h.direct
    (granted o.rateLimitMbps o.throttle (vxlanFrameLen o.slice h.packet) h.packet.hdr.ts)
    (fullySent (vxlanCalls env o h) = vxlanDatagrams env.sse2 o h)

theorem vxlanDatagrams_checked (sse2 : Bool) (o : VxlanOutput) (h : Handed) (throttle : TokenBucket)
    (errorInfo : SendErrorInfo) :
    vxlanDatagrams sse2 { o with throttle, errorInfo } h = vxlanDatagrams sse2 o h := by
  apply VxlanOutput.datagrams_congr
  exact ⟨rfl, rfl, rfl, rfl, rfl⟩

/-- A packet that passes the checks is counted by what became of its datagrams. -/
theorem vxlanSendPacket_of_none (h : Handed)
    (hnone : (passChecks o.rateLimitMbps o.throttle (vxlanFrameLen o.slice h.packet) h.packet.hdr.ts
      h.direct).2 = none) :
    (vxlanSendPacket env o h).1.stats =
      o.stats.count
        (if fullySent (vxlanCalls env o h) = vxlanDatagrams env.sse2 o h then .fwd else .errorDrop)
        (UInt64.ofNat (vxlanFrameLen o.slice h.packet)) 1 := by
  obtain ⟨ready, hready⟩ : ∃ ready : VxlanOutput, ready = { o with
      throttle := (passChecks o.rateLimitMbps o.throttle (vxlanFrameLen o.slice h.packet)
        h.packet.hdr.ts h.direct).1
      errorInfo := o.errorInfo.check h.packet.hdr.ts.sec } := ⟨_, rfl⟩
  have hdatagrams : vxlanDatagrams env.sse2 ready h = vxlanDatagrams env.sse2 o h := by
    rw [hready, vxlanDatagrams_checked]
  have hslice : vxlanFrameLen o.slice h.packet = vxlanFrameLen ready.slice h.packet := by
    rw [hready]
  have hlogs : ready.log = o.log ∧ ready.stats = o.stats := by
    rw [hready]
    exact ⟨rfl, rfl⟩
  obtain ⟨hstats, calls, hlog, hiff⟩ := sendFrames_log env h.packet.hdr.ts h.direct
    (vxlanFrames env.sse2 ready h.packet) ready
  rw [← sendWholeOrSplit_eq, ← hslice] at hstats hlog hiff
  rw [hlogs.1] at hlog
  rw [hlogs.2] at hstats
  have hcalls : vxlanCalls env o h = calls := by
    simp only [vxlanCalls, vxlanSendPacket, hnone, ← hready]
    split_ifs <;> rw [hlog, drop_left]
  rw [hcalls, ← hdatagrams, vxlanDatagrams]
  simp only [vxlanSendPacket, hnone, ← hready]
  split_ifs with hok hsent hsent
  · rw [hstats]
  · exact absurd (hiff.mp hok) hsent
  · exact absurd (hiff.mpr hsent) hok
  · rw [hstats]

theorem vxlanSendPacket_stats (h : Handed) :
    (vxlanSendPacket env o h).1.stats =
      o.stats.count (vxlanBucket env o h) (UInt64.ofNat (vxlanFrameLen o.slice h.packet)) 1 := by
  rw [vxlanBucket, outcomeBucket_eq_getD]
  cases hchecked : (passChecks o.rateLimitMbps o.throttle (vxlanFrameLen o.slice h.packet)
      h.packet.hdr.ts h.direct).2 with
  | some b => simp only [vxlanSendPacket, hchecked, Option.getD_some]
  | none => exact vxlanSendPacket_of_none env o h hchecked

theorem sendFrames_slice : (sendFrames env ts direct frames o).1.slice = o.slice := by
  induction frames generalizing o with
  | nil => rfl
  | cons frame frames ih =>
    simp only [sendFrames]
    split_ifs
    · exact ih _
    · rfl

@[simp] theorem vxlanSendPacket_slice (h : Handed) :
    (vxlanSendPacket env o h).1.slice = o.slice := by
  have hsent : ∀ ready : VxlanOutput, ready.slice = o.slice →
      (sendWholeOrSplit env ready h (vxlanFrameLen o.slice h.packet)).1.slice = o.slice := by
    intro ready hslice
    rw [← hslice, sendWholeOrSplit_eq, sendFrames_slice]
  simp only [vxlanSendPacket]
  cases (passChecks o.rateLimitMbps o.throttle (vxlanFrameLen o.slice h.packet) h.packet.hdr.ts
      h.direct).2 with
  | some b => rfl
  | none =>
    simp only
    split_ifs
    all_goals exact hsent _ rfl

end CloudProbe.Worker
