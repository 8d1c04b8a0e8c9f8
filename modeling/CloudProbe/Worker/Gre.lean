import CloudProbe.Lib.Bytes
import CloudProbe.Worker.Datagram

/-!
# The gre output

Each packet is one datagram: a GRE header with the key present, then the frame. `log` lists all
calls of `sendto` with their results.
-/

namespace CloudProbe.Worker

open Lib

def greMaxFrameLen : ℕ := 65535

/-- `gre_options_t`; the address, the device and the path MTU setting only matter to the socket.
Source: `output_gre.h` -/
structure GreOptions where
  serviceTag : UInt32
  rateLimitMbps : UInt64
  slice : ℤ
deriving DecidableEq

/-- `gre_output_t`.
Source: `output_gre.h` -/
structure GreOutput where
  stats : OutputStats
  rateLimitMbps : UInt64
  throttle : TokenBucket
  slice : ℤ
  serviceTag : UInt32
  errorInfo : SendErrorInfo
  log : List Attempt
deriving DecidableEq

/-- Source: `output_gre.c` `gre_output_new` -/
def greOutputNew (opts : GreOptions) (stats : OutputStats) : GreOutput where
  stats := stats
  rateLimitMbps := opts.rateLimitMbps
  throttle := throttleNew opts.rateLimitMbps
  slice := opts.slice
  serviceTag := opts.serviceTag
  errorInfo := ⟨0, 0, 0, 0⟩
  log := []

/-- The datagram of a frame: K = 1, Ethernet over GRE, and a key with the direction in its high 4
bits and the service tag in the others.
Source: `output_gre.c` `gre_output_new`, `gre_send_packet` -/
def greDatagram (serviceTag : UInt32) (direct : PktDir) (frame : List UInt8) : List UInt8 :=
  be 2 0x2000 ++ be 2 0x6558 ++
    be 4 (serviceTag.toNat % 2 ^ 28 + (direct.toInt % 16).toNat * 2 ^ 28) ++ frame

/-- The bytes a packet counts with.
Source: `output_gre.c` `gre_send_packet`, `frame_len` -/
def greFrameLen (slice : ℤ) (p : Packet) : ℕ := outputFrameLen p.hdr.caplen slice greMaxFrameLen

/-- The datagram that has to be sent for a packet. -/
def grePacket (o : GreOutput) (h : Handed) : List UInt8 :=
  greDatagram o.serviceTag h.direct (h.packet.data.take (greFrameLen o.slice h.packet))

/-- Source: `output_gre.c` `gre_send_packet` -/
def greSendPacket (env : Env) (o : GreOutput) (h : Handed) : GreOutput × ℤ :=
  let ts := h.packet.hdr.ts
  let frameLen := greFrameLen o.slice h.packet
  let count (o : GreOutput) (b : Bucket) : GreOutput :=
    { o with stats := o.stats.count b (UInt64.ofNat frameLen) 1 }
  let checked := passChecks o.rateLimitMbps o.throttle frameLen ts h.direct
  let datagram := grePacket o h
  let o := { o with throttle := checked.1 }
  match checked.2 with
  | some bucket => (count o bucket, -1)
  | none =>
    let info := o.errorInfo.check ts.sec
    let sent := sendtoRetry env datagram maxRetries o.log
    let o := { o with log := sent.2, errorInfo := info.record datagram.length sent.1 }
    if Attempt.full (datagram, sent.1) then (count o .fwd, 0) else (count o .errorDrop, -1)

/-- The log of the `sendto` calls made for a packet. -/
def greCalls (env : Env) (o : GreOutput) (h : Handed) : List Attempt :=
  (greSendPacket env o h).1.log.drop o.log.length

/-- The bucket of a packet: it is forwarded when its direction is known, the rate limit grants it
and its datagram was sent in full. -/
def greBucket (env : Env) (o : GreOutput) (h : Handed) : Bucket :=
  outcomeBucket h.direct
    (granted o.rateLimitMbps o.throttle (greFrameLen o.slice h.packet) h.packet.hdr.ts)
    (fullySent (greCalls env o h) = [grePacket o h])

/-- A packet that passes the checks is counted by its datagram. -/
theorem greSendPacket_of_none (env : Env) (o : GreOutput) (h : Handed)
    (hnone : (passChecks o.rateLimitMbps o.throttle (greFrameLen o.slice h.packet) h.packet.hdr.ts
      h.direct).2 = none) :
    (greSendPacket env o h).1.stats =
      o.stats.count (if fullySent (greCalls env o h) = [grePacket o h] then .fwd else .errorDrop)
        (UInt64.ofNat (greFrameLen o.slice h.packet)) 1 := by
  obtain ⟨calls, hlog, hfull, -⟩ := sendtoRetry_calls env (grePacket o h) maxRetries o.log
  have hcalls : greCalls env o h = calls := by
    simp only [greCalls, greSendPacket, hnone]
    split_ifs <;> rw [hlog, List.drop_left]
  rw [hcalls, hfull]
  simp only [greSendPacket, hnone]
  by_cases hok : Attempt.full (grePacket o h, (sendtoRetry env (grePacket o h) maxRetries o.log).1)
      = true
  all_goals simp [hok]

theorem greSendPacket_stats (env : Env) (o : GreOutput) (h : Handed) :
    (greSendPacket env o h).1.stats =
      o.stats.count (greBucket env o h) (UInt64.ofNat (greFrameLen o.slice h.packet)) 1 := by
  rw [greBucket, outcomeBucket_eq_getD]
  cases hchecked : (passChecks o.rateLimitMbps o.throttle (greFrameLen o.slice h.packet)
      h.packet.hdr.ts h.direct).2 with
  | some b => simp only [greSendPacket, hchecked, Option.getD_some]
  | none => exact greSendPacket_of_none env o h hchecked

@[simp] theorem greSendPacket_slice (env : Env) (o : GreOutput) (h : Handed) :
    (greSendPacket env o h).1.slice = o.slice := by
  simp only [greSendPacket]
  cases (passChecks o.rateLimitMbps o.throttle (greFrameLen o.slice h.packet) h.packet.hdr.ts
      h.direct).2 with
  | some b => rfl
  | none =>
    simp only
    split_ifs <;> rfl

end CloudProbe.Worker
