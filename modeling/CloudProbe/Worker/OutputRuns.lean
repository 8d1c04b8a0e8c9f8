import CloudProbe.Lib.Runs
import CloudProbe.Worker.FileOutputs
import CloudProbe.Worker.Gre

/-!
# Whole runs of the outputs

* **Rotating files** (`rotating_files_kept`): the records that `pcap_dump` got, one opening behind
  the other, are those of the forwarded packets. The names of the files are left out: they are local
  times, which repeat when daylight saving time ends.
* **GRE** (`gre_round_trip`): a packet is forwarded exactly when its datagram is taken in full, and
  a receiver reads it back.

Sources without a file are in `output_rotating_file.c`.
-/

namespace CloudProbe.Worker

open Lib List Option

/-! ## Rotating files -/

/-- The least time from one opening to the next.
Source: `rotating_file_write_packet`, `retry_interval` -/
def RotatingFileOutput.gap (o : RotatingFileOutput) : ℤ := max 1 o.maxFileInterval

inductive ReadyEnd (o : RotatingFileOutput) : RotatingFileOutput × Bool → Prop
  | waits (reads : ℕ) : ReadyEnd o ({ o with timeReads := reads }, false)
  | stays (reads : ℕ) (hopen : o.dumper.isSome = true) :
      ReadyEnd o ({ o with timeReads := reads }, true)
  | opened (reads : ℕ) (now : ℤ) (ok : Bool) (hgap : 0 < o.opens → o.fileTime + o.gap ≤ now) :
      ReadyEnd o ({ o with
        timeReads := reads
        fileTime := now
        opens := o.opens + 1
        dumperError := !ok
        dumper := if ok then some [] else none
        files := o.files ++ o.dumper.toList }, ok)

/-- What is true between two packets: without a savefile the last opening failed, if there was one,
and no savefile is empty. -/
structure RotatingFileOutput.Tidy (o : RotatingFileOutput) : Prop where
  error : o.dumperError = true → o.dumper = none
  opens : o.dumper = none → o.dumperError = false → o.opens = 0
  files : ∀ file ∈ o.files ++ o.dumper.toList, file ≠ []

variable {env : Env}

variable {o : RotatingFileOutput}

/-- Opening a savefile is one of the ways of getting ready, whether or not it succeeds. -/
theorem openDumper_end {reads : ℕ} {now : ℤ} {files : List (List FileRecord)}
    (hfiles : files = o.files ++ o.dumper.toList) (hgap : 0 < o.opens → o.fileTime + o.gap ≤ now) :
    ReadyEnd o (openDumper env { o with
      timeReads := reads, fileTime := now, dumper := none, files := files }) := by
  subst hfiles
  unfold openDumper
  split_ifs
  · exact .opened reads now true hgap
  · exact .opened reads now false hgap

theorem openOrRotate_end
    (hgap : 0 < o.opens → o.dumper = none → o.fileTime + o.gap ≤ env.time o.timeReads) :
    ReadyEnd o (openOrRotate env o) := by
  rcases o with ⟨stats, slice, rate, throttle, interval, time, error, _ | records, files, reads,
    opens⟩
  · exact openDumper_end (append_nil _).symm fun hpos => hgap hpos rfl
  · unfold openOrRotate
    dsimp only
    split_ifs with hrotate
    · refine openDumper_end rfl fun _ => ?_
      show time + max 1 interval ≤ env.time reads
      omega
    · exact .stays _ rfl

theorem ReadyEnd.of_tick {r : RotatingFileOutput × Bool} (h : ReadyEnd o.tick r) :
    ReadyEnd o r := by
  cases h with
  | waits reads => exact .waits reads
  | stays reads hopen => exact .stays reads hopen
  | opened reads now ok hgap => exact .opened reads now ok hgap

/-- The ways of getting a savefile ready. -/
theorem dumperReady_end (hclock : ∀ i j, i ≤ j → env.time i ≤ env.time j) (h : o.Tidy) :
    ReadyEnd o (dumperReady env o) := by
  unfold dumperReady
  by_cases herror : o.dumperError = true
  · simp only [herror, if_true]
    by_cases hwait : env.time o.timeReads - o.fileTime <
        if 0 < o.maxFileInterval then o.maxFileInterval else 1
    · rw [if_pos hwait]
      exact .waits _
    · rw [if_neg hwait]
      refine .of_tick (openOrRotate_end fun _ _ => ?_)
      have hlater : env.time o.timeReads ≤ env.time (o.timeReads + 1) := hclock _ _ (Nat.le_succ _)
      show o.fileTime + max 1 o.maxFileInterval ≤ env.time (o.timeReads + 1)
      split_ifs at hwait <;> omega
  · simp only [herror]
    exact openOrRotate_end fun hpos hnone =>
      absurd (h.opens hnone (by simpa using herror)) hpos.ne'

variable (env) in
/-- Source: `rotating_file_write_packet` -/
def rotatingNext (o : RotatingFileOutput) (h : Handed) : RotatingFileOutput :=
  (rotatingFileWritePacket env o h).1

variable (env) in
/-- The record of a packet that is forwarded. -/
def rotatingKept (o : RotatingFileOutput) (h : Handed) : List FileRecord :=
  if (rotatingFileWritePacket env o h).2 = 0 then [fileRecord o.slice h.packet] else []

variable (env) in
/-- The time of the opening that a packet makes, or tries to make: `file_time`, in seconds. -/
def rotatingOpened (o : RotatingFileOutput) (h : Handed) : List ℤ :=
  if (rotatingNext env o h).opens = o.opens then [] else [(rotatingNext env o h).fileTime]

structure RotatingStep (o o' : RotatingFileOutput) (kept : List FileRecord) : Prop where
  tidy : o'.Tidy
  interval : o'.maxFileInterval = o.maxFileInterval
  written : o'.written = o.written ++ kept
  opened : o'.opens = o.opens ∧ o'.fileTime = o.fileTime ∨
    o'.opens = o.opens + 1 ∧ (0 < o.opens → o.fileTime + o.gap ≤ o'.fileTime)

variable (env) in
/-- A packet is dropped by a check, or written if there is a savefile. -/
theorem rotatingFileWritePacket_cases (o : RotatingFileOutput) (h : Handed) :
    ∃ throttle b, rotatingFileWritePacket env o h =
        ({ o with throttle := throttle }.countAs b (slicedCaplen o.slice h.packet.hdr.caplen), -1) ∨
      rotatingFileWritePacket env o h =
        let ready := dumperReady env { o with throttle := throttle }
        if ready.2 then ((ready.1.dump (fileRecord o.slice h.packet)).countAs .fwd
          (slicedCaplen o.slice h.packet.hdr.caplen), 0)
        else (ready.1.countAs .errorDrop (slicedCaplen o.slice h.packet.hdr.caplen), -1) := by
  unfold rotatingFileWritePacket
  dsimp only
  split
  · exact ⟨_, _, .inl rfl⟩
  · exact ⟨_, .fwd, .inr rfl⟩

theorem RotatingFileOutput.files_dump {record : FileRecord} (h : ∀ file ∈ o.files, file ≠ []) :
    ∀ file ∈ (o.dump record).files ++ (o.dump record).dumper.toList, file ≠ [] := by
  intro file hfile
  rcases mem_append.mp hfile with hfile | hfile
  · exact h file hfile
  · obtain ⟨records, -, rfl⟩ := map_eq_some_iff.mp (mem_toList.mp hfile)
    exact append_ne_nil_of_right_ne_nil _ (cons_ne_nil _ _)

/-- **The step lemma** for the rotating file output. -/
theorem rotating_step (hclock : ∀ i j, i ≤ j → env.time i ≤ env.time j) (ho : o.Tidy) (h : Handed) :
    RotatingStep o (rotatingNext env o h) (rotatingKept env o h) := by
  unfold rotatingNext rotatingKept
  obtain ⟨throttle, bucket, heq | heq⟩ := rotatingFileWritePacket_cases env o h
  · rw [heq]
    exact ⟨⟨ho.error, ho.opens, ho.files⟩, rfl, (append_nil _).symm, .inl ⟨rfl, rfl⟩⟩
  · have hend := dumperReady_end hclock (o := { o with throttle := throttle })
      ⟨ho.error, ho.opens, ho.files⟩
    rw [heq]
    generalize dumperReady env { o with throttle := throttle } = ready at hend
    cases hend with
    | waits reads =>
      exact ⟨⟨ho.error, ho.opens, ho.files⟩, rfl, (append_nil _).symm, .inl ⟨rfl, rfl⟩⟩
    | stays reads hopen =>
      refine ⟨⟨fun herror => ?_, fun hnone => ?_, RotatingFileOutput.files_dump fun file hfile =>
        ho.files file (mem_append_left _ hfile)⟩, rfl, ?_, .inl ⟨rfl, rfl⟩⟩
      · rw [show o.dumper = none from ho.error herror] at hopen
        cases hopen
      · rw [show o.dumper = none from map_eq_none_iff.mp hnone] at hopen
        cases hopen
      · exact RotatingFileOutput.written_dump
          (o := { o with timeReads := reads, throttle := throttle }) _ hopen
    | opened reads now ok hgap =>
      have hflat : (o.files ++ o.dumper.toList).flatten = o.written := by
        cases hdumper : o.dumper <;> simp [RotatingFileOutput.written, hdumper]
      cases ok with
      | true =>
        refine ⟨⟨Bool.noConfusion, fun hnone => absurd hnone (some_ne_none _), ?_⟩, rfl, ?_,
          .inr ⟨rfl, hgap⟩⟩
        · exact forall_mem_append.mpr
            ⟨ho.files, forall_mem_singleton.mpr (cons_ne_nil _ _)⟩
        · exact congrArg (· ++ [_]) hflat
      | false =>
        refine ⟨⟨fun _ => rfl, fun _ => Bool.noConfusion, ?_⟩, rfl, ?_, .inr ⟨rfl, hgap⟩⟩
        · exact forall_mem_append.mpr ⟨ho.files, fun _ hfile => absurd hfile not_mem_nil⟩
        · exact congrArg (· ++ []) hflat

/-- **Rotating files over a whole run.** What `pcap_dump` got, one opening behind the other, are the
records of the packets forwarded, and between openings at least the interval passes. Source:
`rotating_file_write_packet` -/
theorem rotating_files_kept (hclock : ∀ i j, i ≤ j → env.time i ≤ env.time j)
    (opts : RotatingFileOptions)
    (stats : OutputStats) (hs : List Handed) :
    let new := rotatingFileOutputNew opts stats
    let o := hs.foldl (rotatingNext env) new
    o.written = outputs (rotatingNext env) (rotatingKept env) new hs ∧
      (∀ file ∈ o.files ++ o.dumper.toList, file ≠ []) ∧
      (outputs (rotatingNext env) (rotatingOpened env) new hs).Pairwise
        fun s t => s + max 1 opts.maxFileInterval ≤ t := by
  have hnext : ∀ (o : RotatingFileOutput) (h : Handed),
      o.Tidy ∧ o.maxFileInterval = opts.maxFileInterval →
      (rotatingNext env o h).Tidy ∧
        (rotatingNext env o h).maxFileInterval = opts.maxFileInterval := by
    intro o h ho
    have hstep := rotating_step hclock ho.1 h
    exact ⟨hstep.tidy, hstep.interval.trans ho.2⟩
  have hnew : (rotatingFileOutputNew opts stats).Tidy ∧
      (rotatingFileOutputNew opts stats).maxFileInterval = opts.maxFileInterval :=
    ⟨⟨fun _ => rfl, fun _ _ => rfl, fun file hfile => absurd hfile not_mem_nil⟩, rfl⟩
  refine ⟨?_, ?_, ?_⟩
  · exact append_outputs hnext (fun o h ho => (rotating_step hclock ho.1 h).written) hnew hs
  · have hend := List.foldlRecOn hs (rotatingNext env) hnew fun o ho h _ => hnext o h ho
    exact hend.1.files
  · refine (pairwise_outputs (A := fun o t => 0 < o.opens → o.fileTime + o.gap ≤ t) hnext ?_ ?_ hnew
      hs).1
    · intro o h ho
      rcases (rotating_step hclock ho.1 h).opened with ⟨hopens, -⟩ | ⟨hopens, hgap⟩
      · simp [rotatingOpened, hopens]
      · simpa [rotatingOpened, hopens] using hgap
    · intro o h ho t ht
      have hstep := rotating_step hclock ho.1 h
      unfold RotatingFileOutput.gap at ht ⊢
      rw [hstep.interval] at ht
      rcases hstep.opened with ⟨hopens, htime⟩ | ⟨hopens, hgap⟩
      · rw [hopens, htime] at ht
        exact ⟨ht, by simp [rotatingOpened, hopens]⟩
      · have hlater := ht (by omega)
        refine ⟨fun hpos => ?_, ?_⟩
        · have hbefore := hgap hpos
          unfold RotatingFileOutput.gap at hbefore
          omega
        · rw [ho.2] at hlater
          simpa [rotatingOpened, hopens] using hlater

/-- Three packets under a steady clock; the second opening fails. -/
theorem rotating_files_kept_three_packets :
    let env : Env := ⟨fun _ => true, fun _ => ⟨0, 0⟩, fun _ => .error, Nat.cast, (· ≠ 1), false⟩
    let new := rotatingFileOutputNew ⟨1, 0, 0⟩ .zero
    let hs := List.replicate 3 ⟨⟨⟨⟨0, 0⟩, 0, 0⟩, [], rfl⟩, .noncheck⟩
    outputs (rotatingNext env) (rotatingOpened env) new hs = [0, 1, 3] ∧
      (outputs (rotatingNext env) (rotatingOpened env) new hs).Pairwise
        fun s t => s + max 1 1 ≤ t := by
  intro env new hs
  refine ⟨by decide +kernel, ?_⟩
  exact (rotating_files_kept (fun _ _ => Int.ofNat_le.mpr) ⟨1, 0, 0⟩ .zero hs).2.2

/-! ## GRE -/

/-- A packet as a receiver sees it: the direction, the service tag and the frame. -/
structure GreReceived where
  direct : PktDir
  serviceTag : ℕ
  frame : List UInt8
deriving DecidableEq

def PktDir.ofNat? : ℕ → Option PktDir
  | 0 => some .noncheck
  | 1 => some .incoming
  | 2 => some .outgoing
  | _ => none

/-- What a receiver reads: Ethernet over GRE with a key, the direction in its high 4 bits. -/
def readGre (datagram : List UInt8) : Option GreReceived :=
  let key := ofBe ((datagram.drop 4).take 4)
  if datagram.take 4 = be 2 0x2000 ++ be 2 0x6558 then
    (PktDir.ofNat? (key / 2 ^ 28)).map fun direct => ⟨direct, key % 2 ^ 28, datagram.drop 8⟩
  else none

/-- A receiver reads the datagram back. -/
theorem readGre_greDatagram (serviceTag : UInt32) {direct : PktDir} (hdirect : direct ≠ .unknown)
    (frame : List UInt8) :
    readGre (greDatagram serviceTag direct frame) =
      some ⟨direct, serviceTag.toNat % 2 ^ 28, frame⟩ := by
  obtain ⟨key, hkey⟩ : ∃ key, key =
    serviceTag.toNat % 2 ^ 28 + (direct.toInt % 16).toNat * 2 ^ 28 := ⟨_, rfl⟩
  have hlow := Nat.mod_lt serviceTag.toNat (show 0 < 2 ^ 28 by decide)
  have hparts : PktDir.ofNat? (key / 2 ^ 28) = some direct ∧
      key % 2 ^ 28 = serviceTag.toNat % 2 ^ 28 ∧ key < 256 ^ 4 := by
    rw [hkey, Nat.add_mul_div_right _ _ (by decide), Nat.div_eq_of_lt hlow, Nat.zero_add,
      Nat.add_mul_mod_self_right, Nat.mod_mod]
    refine ⟨?_, rfl, ?_⟩ <;> cases direct <;> simp [PktDir.toInt, PktDir.ofNat?] at hdirect ⊢ <;>
      omega
  have hread : ofBe (((greDatagram serviceTag direct frame).drop 4).take 4) = key := by
    rw [← Nat.mod_eq_of_lt hparts.2.2, ← ofBe_be, hkey]
    rfl
  simp only [readGre, hread, hparts.1, hparts.2.1]
  rfl

variable (env) in
/-- Source: `output_gre.c` `gre_send_packet` -/
def greNext (o : GreOutput) (h : Handed) : GreOutput := (greSendPacket env o h).1

variable (env) in
/-- What a receiver should see of a packet that is forwarded. -/
def greKept (o : GreOutput) (h : Handed) : List (Option GreReceived) :=
  if (greSendPacket env o h).2 = 0 then
    [some ⟨h.direct, o.serviceTag.toNat % 2 ^ 28,
      h.packet.data.take (greFrameLen o.slice h.packet)⟩]
  else []

/-- **The step lemma** for the GRE output. -/
theorem gre_step (o : GreOutput) (h : Handed) :
    (fullySent (greNext env o h).log).map readGre =
      (fullySent o.log).map readGre ++ greKept env o h := by
  unfold greNext greKept
  cases hchecked : (passChecks o.rateLimitMbps o.throttle (greFrameLen o.slice h.packet)
      h.packet.hdr.ts h.direct).2 with
  | some b => simp [greSendPacket, hchecked]
  | none =>
    have hdirect : h.direct ≠ .unknown := by
      intro hunknown
      simp [passChecks_snd, hunknown] at hchecked
    obtain ⟨calls, hlog, hfull, -⟩ := sendtoRetry_calls env (grePacket o h) maxRetries o.log
    simp only [greSendPacket, hchecked]
    by_cases hok : Attempt.full
        (grePacket o h, (sendtoRetry env (grePacket o h) maxRetries o.log).1) = true
    · have hread : readGre (grePacket o h) = _ := readGre_greDatagram o.serviceTag hdirect _
      rw [if_pos hok] at hfull
      simp [hok, hlog, fullySent_append, hfull, hread]
    · rw [if_neg hok] at hfull
      simp [hok, hlog, fullySent_append, hfull]

/-- When a packet is forwarded. -/
theorem greSendPacket_eq_zero_iff (o : GreOutput) (h : Handed) :
    (greSendPacket env o h).2 = 0 ↔ h.direct ≠ .unknown ∧
      granted o.rateLimitMbps o.throttle (greFrameLen o.slice h.packet) h.packet.hdr.ts = true ∧
      Taken env (grePacket o h) maxRetries o.log.length := by
  have hchecks := passChecks_snd o.rateLimitMbps o.throttle (greFrameLen o.slice h.packet)
    h.packet.hdr.ts h.direct
  rw [← full_sendtoRetry_iff]
  simp only [greSendPacket]
  split_ifs at hchecks with hunknown hgranted
  · simp only [hchecks]
    constructor
    · intro hzero
      cases hzero
    · intro hall
      exact absurd hunknown hall.1
  · simp only [hchecks, hunknown, hgranted, ne_eq, not_false_eq_true, true_and]
    split_ifs with hfull <;> simp [hfull]
  · simp [hchecks, hgranted]

/-- **GRE over a whole run.** The datagrams sent in full are those of the packets forwarded, in
order, and a receiver reads back the direction, 28 bits of the tag and the frame. Source:
`output_gre.c` `gre_send_packet` -/
theorem gre_round_trip (env : Env) (opts : GreOptions) (stats : OutputStats) (hs : List Handed) :
    (fullySent (hs.foldl (greNext env) (greOutputNew opts stats)).log).map readGre =
        outputs (greNext env) (greKept env) (greOutputNew opts stats) hs ∧
      ∀ o h, (greSendPacket env o h).2 = 0 ↔ h.direct ≠ .unknown ∧
        granted o.rateLimitMbps o.throttle (greFrameLen o.slice h.packet) h.packet.hdr.ts = true ∧
        Taken env (grePacket o h) maxRetries o.log.length := by
  refine ⟨?_, greSendPacket_eq_zero_iff⟩
  exact append_outputs (P := fun _ => True) (f := fun o => (fullySent o.log).map readGre)
    (fun _ _ h => h) (fun o h _ => gre_step o h) trivial hs

/-- An incoming frame, and one that goes out at the second try. -/
theorem gre_round_trip_two_frames :
    let env : Env := ⟨fun _ => true, fun _ => ⟨0, 0⟩,
      ([.sent 9, .nobufs, .sent 10].getD · .error), fun _ => 0, fun _ => true, false⟩
    let new := greOutputNew ⟨7, 0, 0⟩ .zero
    let hs := [⟨⟨⟨⟨0, 0⟩, 1, 1⟩, [1], rfl⟩, .incoming⟩, ⟨⟨⟨⟨0, 0⟩, 2, 2⟩, [2, 3], rfl⟩, .outgoing⟩]
    (fullySent (hs.foldl (greNext env) new).log).map readGre =
      [some ⟨.incoming, 7, [1]⟩, some ⟨.outgoing, 7, [2, 3]⟩] := by
  intro env new hs
  rw [(gre_round_trip env ⟨7, 0, 0⟩ .zero hs).1]
  decide +kernel

end CloudProbe.Worker
