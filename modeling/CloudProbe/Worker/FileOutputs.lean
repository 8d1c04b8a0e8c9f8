import CloudProbe.Worker.OutputBase

/-!
# The file and rotating_file outputs

`FileOutput` writes each packet that passes the checks to its savefile. `RotatingFileOutput` opens a
new savefile when the current one is `max_file_interval` old. Opening one can fail; it is tried
again after the interval, and packets are dropped in the meantime. `records` and `files` list what
was written. The names of the files are left out.

Sources without a file are in `output_rotating_file.c`.
-/

namespace CloudProbe.Worker

open Option

structure FileRecord where
  hdr : PcapPkthdr
  data : List UInt8
deriving DecidableEq

/-- The captured length after `slice`. Source: `file_write_packet`, `rotating_file_write_packet` -/
def slicedCaplen (slice : ℤ) (caplen : UInt32) : UInt32 :=
  if 0 < slice ∧ slice < caplen.toNat then UInt32.ofNat slice.toNat else caplen

/-- `UINT32_MAX`: the files have no cap of their own, a captured length is 32 bits wide. -/
def fileMaxFrameLen : ℕ := 2 ^ 32 - 1

theorem toNat_slicedCaplen (slice : ℤ) (caplen : UInt32) :
    (slicedCaplen slice caplen).toNat = outputFrameLen caplen slice fileMaxFrameLen := by
  have hcap : caplen.toNat < 2 ^ 32 := caplen.toNat_lt
  rw [slicedCaplen, outputFrameLen, fileMaxFrameLen]
  by_cases hcut : 0 < slice ∧ slice < caplen.toNat
  · simp only [hcut, and_self, if_true, UInt32.toNat_ofNat']
    rw [Nat.mod_eq_of_lt (by omega), if_pos (by omega)]
  · simp only [hcut, if_false]
    split_ifs <;> omega

def fileRecord (slice : ℤ) (p : Packet) : FileRecord where
  hdr := { p.hdr with caplen := slicedCaplen slice p.hdr.caplen }
  data := p.data.take (slicedCaplen slice p.hdr.caplen).toNat

/-! ## One file -/

/-- `file_options_t`, without the file's name and the snapshot length in its header.
Source: `output_file.h` -/
structure FileOptions where
  slice : ℤ
  rateLimitMbps : UInt64
deriving DecidableEq

/-- `file_output_t`.
Source: `output_file.h` -/
structure FileOutput where
  stats : OutputStats
  slice : ℤ
  rateLimitMbps : UInt64
  throttle : TokenBucket
  /-- the records of the savefile -/
  records : List FileRecord
deriving DecidableEq

/-- Source: `output_file.c` `file_output_new` -/
def fileOutputNew (opts : FileOptions) (stats : OutputStats) : FileOutput where
  stats := stats
  slice := opts.slice
  rateLimitMbps := opts.rateLimitMbps
  throttle := throttleNew opts.rateLimitMbps
  records := []

/-- Source: `output_file.c` `file_write_packet` -/
def fileWritePacket (o : FileOutput) (h : Handed) : FileOutput × ℤ :=
  let caplen := slicedCaplen o.slice h.packet.hdr.caplen
  let count (o : FileOutput) (b : Bucket) : FileOutput :=
    { o with stats := o.stats.count b caplen.toUInt64 1 }
  let checked := passChecks o.rateLimitMbps o.throttle caplen.toNat h.packet.hdr.ts h.direct
  let o := { o with throttle := checked.1 }
  match checked.2 with
  | some bucket => (count o bucket, -1)
  | none => (count { o with records := o.records ++ [fileRecord o.slice h.packet] } .fwd, 0)

/-- The bucket of a packet: it is forwarded when its direction is known, the rate limit grants it
and it was written. -/
def fileBucket (o : FileOutput) (h : Handed) : Bucket :=
  outcomeBucket h.direct
    (granted o.rateLimitMbps o.throttle (slicedCaplen o.slice h.packet.hdr.caplen).toNat
      h.packet.hdr.ts)
    ((fileWritePacket o h).1.records = o.records ++ [fileRecord o.slice h.packet])

theorem fileWritePacket_stats (o : FileOutput) (h : Handed) :
    (fileWritePacket o h).1.stats =
      o.stats.count (fileBucket o h) (slicedCaplen o.slice h.packet.hdr.caplen).toUInt64 1 := by
  rw [fileBucket, outcomeBucket_eq_getD]
  cases hchecked : (passChecks o.rateLimitMbps o.throttle
      (slicedCaplen o.slice h.packet.hdr.caplen).toNat h.packet.hdr.ts h.direct).2 with
  | some b => simp only [fileWritePacket, hchecked, getD_some]
  | none => simp only [fileWritePacket, hchecked, getD_none, if_true]

@[simp] theorem fileWritePacket_slice (o : FileOutput) (h : Handed) :
    (fileWritePacket o h).1.slice = o.slice := by
  simp only [fileWritePacket]
  split <;> rfl

/-! ## Rotating files -/

/-- `rotating_file_options_t`, without the root directory and the snapshot length in the headers.
Source: `output_rotating_file.h` -/
structure RotatingFileOptions where
  maxFileInterval : ℤ
  slice : ℤ
  rateLimitMbps : UInt64
deriving DecidableEq

/-- `rotating_file_output_t`.
Source: `output_rotating_file.h` -/
structure RotatingFileOutput where
  stats : OutputStats
  slice : ℤ
  rateLimitMbps : UInt64
  throttle : TokenBucket
  maxFileInterval : ℤ
  fileTime : ℤ
  dumperError : Bool
  /-- the records of the open savefile, `none` when `dumper` is `NULL` -/
  dumper : Option (List FileRecord)
  /-- the records of the savefiles that were closed -/
  files : List (List FileRecord)
  /-- how often `time` was called -/
  timeReads : ℕ
  /-- how often `create_dumper` was called -/
  opens : ℕ
deriving DecidableEq

/-- Source: `rotating_file_output_new` -/
def rotatingFileOutputNew (opts : RotatingFileOptions) (stats : OutputStats) :
    RotatingFileOutput where
  stats := stats
  slice := opts.slice
  rateLimitMbps := opts.rateLimitMbps
  throttle := throttleNew opts.rateLimitMbps
  maxFileInterval := opts.maxFileInterval
  fileTime := 0
  dumperError := false
  dumper := none
  files := []
  timeReads := 0
  opens := 0

/-- A call of `time` is counted. -/
def RotatingFileOutput.tick (o : RotatingFileOutput) : RotatingFileOutput :=
  { o with timeReads := o.timeReads + 1 }

/-- `create_dumper`, with `dumper_error` set to whether it failed.
Source: `create_dumper`, `rotating_file_write_packet` -/
def openDumper (env : Env) (o : RotatingFileOutput) : RotatingFileOutput × Bool :=
  if env.createDumper o.opens then
    ({ o with opens := o.opens + 1, dumper := some [], dumperError := false }, true)
  else ({ o with opens := o.opens + 1, dumperError := true }, false)

/-- The first savefile is opened, or one that is old enough is replaced.
Source: `rotating_file_write_packet` -/
def openOrRotate (env : Env) (o : RotatingFileOutput) : RotatingFileOutput × Bool :=
  let now := env.time o.timeReads
  match o.dumper with
  | none => openDumper env { o.tick with fileTime := now }
  | some records =>
    -- `max_file_interval == 0` means never rotate
    if 0 < o.maxFileInterval ∧ o.maxFileInterval ≤ now - o.fileTime then
      openDumper env
        { o.tick with files := o.files ++ [records], fileTime := now, dumper := none }
    else (o.tick, true)

/-- Whether there is a savefile to write to. After a failure the next is not tried before the
rotation interval, at least one second, has passed.
Source: `rotating_file_write_packet` -/
def dumperReady (env : Env) (o : RotatingFileOutput) : RotatingFileOutput × Bool :=
  if o.dumperError then
    let retryInterval := if 0 < o.maxFileInterval then o.maxFileInterval else 1
    if env.time o.timeReads - o.fileTime < retryInterval then (o.tick, false)
    else openOrRotate env o.tick
  else openOrRotate env o

/-- `pcap_dump` to the open savefile. -/
def RotatingFileOutput.dump (o : RotatingFileOutput) (record : FileRecord) : RotatingFileOutput :=
  { o with dumper := o.dumper.map (· ++ [record]) }

def RotatingFileOutput.countAs (o : RotatingFileOutput) (b : Bucket) (caplen : UInt32) :
    RotatingFileOutput :=
  { o with stats := o.stats.count b caplen.toUInt64 1 }

/-- Source: `rotating_file_write_packet` -/
def rotatingFileWritePacket (env : Env) (o : RotatingFileOutput) (h : Handed) :
    RotatingFileOutput × ℤ :=
  let caplen := slicedCaplen o.slice h.packet.hdr.caplen
  let checked := passChecks o.rateLimitMbps o.throttle caplen.toNat h.packet.hdr.ts h.direct
  let record := fileRecord o.slice h.packet
  let o := { o with throttle := checked.1 }
  match checked.2 with
  | some bucket => (o.countAs bucket caplen, -1)
  | none =>
    let ready := dumperReady env o
    if ready.2 then ((ready.1.dump record).countAs .fwd caplen, 0)
    else (ready.1.countAs .errorDrop caplen, -1)

def RotatingFileOutput.written (o : RotatingFileOutput) : List FileRecord :=
  o.files.flatten ++ o.dumper.getD []

variable (env : Env) (o : RotatingFileOutput)

@[simp] theorem RotatingFileOutput.written_countAs (b : Bucket) (caplen : UInt32) :
    (o.countAs b caplen).written = o.written := rfl

@[simp] theorem RotatingFileOutput.stats_countAs (b : Bucket) (caplen : UInt32) :
    (o.countAs b caplen).stats = o.stats.count b caplen.toUInt64 1 := rfl

@[simp] theorem RotatingFileOutput.stats_dump (record : FileRecord) :
    (o.dump record).stats = o.stats := rfl

theorem RotatingFileOutput.written_dump {o : RotatingFileOutput} (record : FileRecord)
    (hopen : o.dumper.isSome = true) : (o.dump record).written = o.written ++ [record] := by
  obtain ⟨records, hrecords⟩ := isSome_iff_exists.mp hopen
  simp [written, dump, hrecords]

/-- Getting a savefile ready keeps what was written, the counters and the slice; when it succeeds a
savefile is open. -/
structure Ready (o : RotatingFileOutput) (r : RotatingFileOutput × Bool) : Prop where
  written : r.1.written = o.written
  stats : r.1.stats = o.stats
  slice : r.1.slice = o.slice
  dumper : r.2 = true → r.1.dumper.isSome = true

theorem openDumper_ready {o o' : RotatingFileOutput} (hnone : o'.dumper = none)
    (hwritten : o'.written = o.written) (hstats : o'.stats = o.stats) (hslice : o'.slice = o.slice)
    :
    Ready o (openDumper env o') := by
  have hfiles : o'.written = o'.files.flatten := by
    simp [RotatingFileOutput.written, hnone]
  rw [openDumper]
  split_ifs
  · exact ⟨by rw [← hwritten, hfiles]; simp [RotatingFileOutput.written], hstats, hslice,
      fun _ => rfl⟩
  · refine ⟨?_, hstats, hslice, ?_⟩
    · exact hwritten
    · nofun

theorem openOrRotate_ready : Ready o (openOrRotate env o) := by
  simp only [openOrRotate]
  cases hdumper : o.dumper with
  | none => exact openDumper_ready env hdumper rfl rfl rfl
  | some records =>
    simp only
    split_ifs
    · refine openDumper_ready env rfl ?_ rfl rfl
      simp [RotatingFileOutput.written, hdumper]
    · refine ⟨rfl, rfl, rfl, fun _ => ?_⟩
      simp [RotatingFileOutput.tick, hdumper]

/-- Getting ready touches the savefile only. -/
theorem dumperReady_ready : Ready o (dumperReady env o) := by
  have hafter : ∀ o' : RotatingFileOutput, o'.written = o.written → o'.stats = o.stats →
      o'.slice = o.slice → Ready o (openOrRotate env o') := by
    intro o' hwritten hstats hslice
    obtain ⟨h₁, h₂, h₃, h₄⟩ := openOrRotate_ready env o'
    exact ⟨h₁.trans hwritten, h₂.trans hstats, h₃.trans hslice, h₄⟩
  rw [dumperReady]
  by_cases herror : o.dumperError = true
  · simp only [herror, if_true]
    by_cases hwait : env.time o.timeReads - o.fileTime <
        if 0 < o.maxFileInterval then o.maxFileInterval else 1
    · rw [if_pos hwait]
      exact ⟨rfl, rfl, rfl, nofun⟩
    · rw [if_neg hwait]
      exact hafter _ rfl rfl rfl
  · simp only [herror]
    exact hafter _ rfl rfl rfl

/-- The bucket of a packet: it is forwarded when its direction is known, the rate limit grants it
and it was written. -/
def rotatingFileBucket (env : Env) (o : RotatingFileOutput) (h : Handed) : Bucket :=
  outcomeBucket h.direct
    (granted o.rateLimitMbps o.throttle (slicedCaplen o.slice h.packet.hdr.caplen).toNat
      h.packet.hdr.ts)
    ((rotatingFileWritePacket env o h).1.written = o.written ++ [fileRecord o.slice h.packet])

/-- A packet is counted once, in its bucket. -/
theorem rotatingFileWritePacket_stats (h : Handed) :
    (rotatingFileWritePacket env o h).1.stats =
      o.stats.count (rotatingFileBucket env o h)
        (slicedCaplen o.slice h.packet.hdr.caplen).toUInt64 1 := by
  rw [rotatingFileBucket, outcomeBucket_eq_getD]
  cases hchecked : (passChecks o.rateLimitMbps o.throttle
      (slicedCaplen o.slice h.packet.hdr.caplen).toNat h.packet.hdr.ts h.direct).2 with
  | some b =>
    simp only [rotatingFileWritePacket, hchecked, getD_some, RotatingFileOutput.stats_countAs]
  | none =>
    simp only [rotatingFileWritePacket, hchecked, getD_none]
    have hready := dumperReady_ready env { o with
      throttle := (passChecks o.rateLimitMbps o.throttle
        (slicedCaplen o.slice h.packet.hdr.caplen).toNat h.packet.hdr.ts h.direct).1 }
    generalize dumperReady env { o with throttle := (passChecks o.rateLimitMbps o.throttle
      (slicedCaplen o.slice h.packet.hdr.caplen).toNat h.packet.hdr.ts h.direct).1 } = ready
      at hready ⊢
    have hwritten : ready.1.written = o.written := hready.written
    have hstats : ready.1.stats = o.stats := hready.stats
    cases hok : ready.2 with
    | true =>
      simp only [if_true, RotatingFileOutput.written_countAs, RotatingFileOutput.stats_countAs,
        RotatingFileOutput.written_dump _ (hready.dumper hok), hwritten,
        RotatingFileOutput.stats_dump, hstats]
    | false =>
      simp only [Bool.false_eq_true, if_false, RotatingFileOutput.written_countAs, hwritten,
        List.self_eq_append_right, List.cons_ne_nil, RotatingFileOutput.stats_countAs, hstats]

@[simp] theorem rotatingFileWritePacket_slice (h : Handed) :
    (rotatingFileWritePacket env o h).1.slice = o.slice := by
  simp only [rotatingFileWritePacket]
  split
  · rfl
  · split_ifs <;> exact (dumperReady_ready env _).slice

end CloudProbe.Worker
