import CloudProbe.Worker.ZmqBatch

/-!
# The zmq output as a book of batches

The zmq output refines the abstract `Book` (`Sim`): packets are counted at once or join the open
batch, heartbeats join it as other items, and a flush closes it with the bucket of its outcome.
`Advance` says how far a call moves the book and the counters.
-/

namespace CloudProbe.Worker

open Lib List

/-! ## The simulation -/

def batchBucket (sent : Bool) : Bucket := if sent then .fwd else .errorDrop

structure Sim (opts : ZmqOptions) (o : ZmqOutput) (B : Book Handed Timeval Bucket) : Prop where
  slice : o.slice = opts.slice
  serviceTag : o.serviceTag = opts.serviceTag.toUInt16
  keybit : o.keybit = opts.serviceTag
  uuid : o.uuid = opts.uuid
  whole : ∀ x ∈ B.current, ZmqItem.Whole x
  buf : o.buf.take (o.batchBufpos - zmqBatchHdrLen) = B.current.flatMap opts.encode
  bufpos : o.batchBufpos = zmqBatchHdrLen + (B.current.flatMap opts.encode).length
  fits : o.batchBufpos ≤ zmqMaxBatchBufSize
  num : o.pktsNum.toNat = B.current.length
  heartbeats : o.heartbeatNum.toNat = (others B.current).length
  data : o.dataBytes.toNat = ((accounted B.current).map opts.countedLen).sum
  closed : ∀ c ∈ B.closed, c.1 ≠ [] ∧ (∀ x ∈ c.1, ZmqItem.Whole x) ∧
    zmqBatchHdrLen + (c.1.flatMap opts.encode).length ≤ zmqMaxBatchBufSize ∧
    (c.2 = .fwd ∨ c.2 = .errorDrop)
  wire : o.wire = B.closed.map fun c => (opts.message c.1, decide (c.2 = .fwd))

variable {o : ZmqOutput} {opts : ZmqOptions} {B : Book Handed Timeval Bucket} (env : Env)

theorem Sim.pending (h : Sim opts o B) : Pending opts o B.current :=
  { h with }

theorem sim_new (opts : ZmqOptions) (stats : OutputStats) :
    Sim opts (zmqOutputNew env opts stats) .empty :=
  { pending_new env opts stats with
    closed := by simp [Book.empty]
    wire := rfl }

/-! ## One call -/

/-- From `o` with book `B` to `o'` with book `B'`: the packets `hs` were handed over, `vs` says in
which bucket each was counted at once, the items `xs` joined the batches, and the counters moved
along. -/
structure Advance (opts : ZmqOptions) (o : ZmqOutput) (B : Book Handed Timeval Bucket)
    (o' : ZmqOutput) (B' : Book Handed Timeval Bucket) (hs : List Handed)
    (vs : List (Option Bucket)) (xs : List ZmqItem) : Prop where
  sim : Sim opts o' B'
  posted : Posted opts.countedLen o.stats o'.stats B.ledger B'.ledger
  heartbeats : o'.stats.heartbeatPackets.value + B.delivered .fwd ≡
    o.stats.heartbeatPackets.value + B'.delivered .fwd [MOD CarryCounter.span petaInPackets]
  handed : B'.ledger.map Prod.fst = B.ledger.map Prod.fst ++ hs
  verdicts : B'.ledger.verdicts = B.ledger.verdicts ++ vs
  items : B'.items = B.items ++ xs

namespace Advance

variable {opts : ZmqOptions} {o o' o'' : ZmqOutput} {B B' B'' : Book Handed Timeval Bucket}
  {hs hs' : List Handed} {vs vs' : List (Option Bucket)} {xs xs' : List ZmqItem}

theorem refl (h : Sim opts o' B) (hstats : o'.stats = o.stats) :
    Advance opts o B o' B [] [] [] where
  sim := h
  posted := hstats ▸ Posted.refl _ _
  heartbeats := hstats ▸ Nat.ModEq.refl _
  handed := (append_nil _).symm
  verdicts := (append_nil _).symm
  items := (append_nil _).symm

theorem trans (h₁ : Advance opts o B o' B' hs vs xs) (h₂ : Advance opts o' B' o'' B'' hs' vs' xs') :
    Advance opts o B o'' B'' (hs ++ hs') (vs ++ vs') (xs ++ xs') where
  sim := h₂.sim
  posted := h₁.posted.trans h₂.posted
  heartbeats := modEq_chain h₁.heartbeats h₂.heartbeats
  handed := by rw [h₂.handed, h₁.handed, append_assoc]
  verdicts := by rw [h₂.verdicts, h₁.verdicts, append_assoc]
  items := by rw [h₂.items, h₁.items, append_assoc]

theorem startAt (h : Advance opts o B o' B' hs vs xs) (sec : ℤ) :
    Advance opts o B (o'.startAt sec) B' hs vs xs :=
  { h with sim := { h.sim with } }

theorem startIf (h : Advance opts o B o' B' hs vs xs) (c : Prop) [Decidable c] (sec : ℤ) :
    Advance opts o B (if c then o'.startAt sec else o') B' hs vs xs := by
  split_ifs
  · exact h.startAt sec
  · exact h

end Advance

section Calls

variable {opts : ZmqOptions} {o : ZmqOutput} {B : Book Handed Timeval Bucket}

theorem Sim.dataNum (h : Sim opts o B) :
    (o.pktsNum - o.heartbeatNum).toNat = (accounted B.current).length := by
  have hparts := length_accounted_add_others B.current
  have hle : o.heartbeatNum ≤ o.pktsNum := by
    rw [UInt16.le_iff_toNat_le, h.num, h.heartbeats]
    omega
  rw [UInt16.toNat_sub_of_le _ _ hle, h.num, h.heartbeats]
  omega

variable {o' : ZmqOutput} {hd : Handed} (env : Env)

/-- A flush closes the batch, which is counted by the result of `zmq_send`. -/
theorem zmqFlushPacket_advance (h : Sim opts o B) (hne : B.current ≠ []) :
    Advance opts o B (zmqFlushPacket env o)
      (B.close (batchBucket (env.zmqSend o.wire.length))) [] [] [] where
  sim := { h.pending.flush env with
    closed := by
      intro c hc
      rcases mem_append.mp hc with hc | hc
      · exact h.closed c hc
      · rw [mem_singleton.mp hc]
        refine ⟨hne, h.whole, h.bufpos ▸ h.fits, ?_⟩
        simp only [batchBucket]
        split_ifs
        · exact .inl rfl
        · exact .inr rfl
    wire := by
      simp only [zmqFlushPacket, h.pending.message_eq, Book.close, map_append, h.wire,
        map_cons,
        map_nil]
      cases env.zmqSend (B.closed.map fun c =>
        (opts.message c.1, decide (c.2 = Bucket.fwd))).length <;> rfl }
  posted := by
    have hn : o.dataBytes.toUInt64.toNat = ((accounted B.current).map opts.countedLen).sum := by
      rw [UInt32.toNat_toUInt64, h.data]
    have hm : (o.pktsNum - o.heartbeatNum).toUInt64.toNat = (accounted B.current).length := by
      rw [UInt16.toNat_toUInt64, h.dataNum]
    simp only [zmqFlushPacket, batchBucket]
    split_ifs
    · exact (Posted.close o.stats B .fwd hn hm).countHeartbeats _
    · exact Posted.close o.stats B .errorDrop hn hm
  heartbeats := by
    rw [Book.delivered_close]
    by_cases hsent : env.zmqSend o.wire.length = true
    · have hadd := CarryCounter.value_add (by decide) o.stats.heartbeatPackets
        o.heartbeatNum.toUInt64
      rw [UInt16.toNat_toUInt64, h.heartbeats] at hadd
      rw [Nat.add_comm (B.delivered .fwd), ← Nat.add_assoc]
      simpa [zmqFlushPacket, batchBucket, hsent, OutputStats.countHeartbeats, packetsStatsAdd]
        using hadd.add_right (B.delivered .fwd)
    · simpa [zmqFlushPacket, batchBucket, hsent] using Nat.ModEq.refl _
  handed := by simp [Book.close]
  verdicts := by simp [Book.close]
  items := by simp

theorem zmqFlushIfStale_advance (h : Sim opts o B) (now : ℤ) :
    ∃ B', Advance opts o B (zmqFlushIfStale env o now) B' [] [] [] := by
  rw [zmqFlushIfStale]
  split_ifs with hstale
  · exact ⟨_, zmqFlushPacket_advance env h (h.pending.ne_nil hstale.1)⟩
  · exact ⟨B, .refl h rfl⟩

theorem counted_advance (h : Sim opts o' B) (hd : Handed) {b : Bucket}
    (hstats : o'.stats = o.stats.count b (UInt64.ofNat (opts.countedLen hd)) 1) :
    Advance opts o B o' (B.refuse hd b) [hd] [some b] [] where
  sim := { h with }
  posted := by
    rw [hstats]
    apply Posted.counted
    have hcap : hd.packet.hdr.caplen.toNat < 2 ^ 32 := hd.packet.hdr.caplen.toNat_lt
    rw [ZmqOptions.countedLen]
    split_ifs with hl2
    · omega
    · have hmax := (zmqFrameLen_bounds opts.slice hl2).2.2
      simp only [zmqMaxFrameLen] at hmax
      omega
  heartbeats := by
    rw [hstats, OutputStats.heartbeatPackets_count]
    rfl
  handed := by simp [Book.refuse]
  verdicts := by simp [Book.refuse, Ledger.verdicts, Fate.atOnce]
  items := by simp

/-- A packet for which there is room joins the batch. -/
theorem accept_advance (h : Sim opts o B) (hl2 : zmqL2Len hd.packet ≠ 0)
    (hroom : o.batchBufpos + zmqRecordHdrLen + zmqRecordLen opts.slice hd.packet ≤
      zmqMaxBatchBufSize) (ts : Timeval) :
    Advance opts o B
      { zmqAppend o (zmqDataRecord o.serviceTag o.slice hd) with
        dataBytes := o.dataBytes + UInt32.ofNat (zmqFrameLen opts.slice hd.packet)
        lastPktTv := ts }
      (B.accept hd) [hd] [none] [.inl hd] where
  sim := { h.pending.accept hl2 hroom ts with
    closed := h.closed
    wire := h.wire }
  posted := Posted.pending _ _ _
  heartbeats := Nat.ModEq.refl _
  handed := by simp [Book.accept]
  verdicts := by simp [Book.accept, Ledger.verdicts, Fate.atOnce]
  items := by simp

theorem insert_advance (h : Sim opts o B) (tv : Timeval)
    (hroom : o.batchBufpos + zmqRecordHdrLen + etherHeaderLen ≤ zmqMaxBatchBufSize) :
    Advance opts o B
      { zmqAppend o (zmqHeartbeatRecord tv) with heartbeatNum := o.heartbeatNum + 1 }
      (B.insert tv) [] [] [.inr tv] where
  sim := { h.pending.insert tv hroom with
    closed := h.closed
    wire := h.wire }
  posted := Posted.refl _ _
  heartbeats := Nat.ModEq.refl _
  handed := (append_nil _).symm
  verdicts := (append_nil _).symm
  items := by simp

theorem zmqMakeRoom_advance (h : Sim opts o B) (sec : ℤ) {recordLen : ℕ} (hlen : recordLen < 2 ^ 16)
    :
    ∃ B', Advance opts o B (zmqMakeRoom env o sec recordLen) B' [] [] [] ∧
      (zmqMakeRoom env o sec recordLen).batchBufpos + zmqRecordHdrLen + recordLen ≤
        zmqMaxBatchBufSize := by
  rcases zmqMakeRoom_cases env h.pending sec hlen with ⟨hpos, heq⟩ | ⟨first, heq, hroom, -⟩
  · rw [heq]
    refine ⟨_, (zmqFlushPacket_advance env h (h.pending.ne_nil hpos)).startAt sec, ?_⟩
    simp only [ZmqOutput.startAt, zmqFlushPacket, zmqBatchHdrLen, zmqRecordHdrLen,
      zmqMaxBatchBufSize]
    omega
  · rw [heq]
    exact ⟨B, (Advance.refl h rfl).startAt first, hroom⟩

/-- A packet joins the batch, after a flush if need be. -/
theorem zmqAddPacket_advance (h : Sim opts o' B) (hl2 : zmqL2Len hd.packet ≠ 0)
    (hstats : o'.stats = o.stats) :
    ∃ B', Advance opts o B (zmqAddPacket env o' hd) B' [hd] [none] [.inl hd] := by
  have hrecord : zmqRecordLen o'.slice hd.packet < 2 ^ 16 := Nat.mod_lt _ (by decide)
  obtain ⟨B', hmade, hroom⟩ := zmqMakeRoom_advance env h hd.packet.hdr.ts.sec hrecord
  obtain ⟨made, hmadeEq⟩ : ∃ made, made =
    zmqMakeRoom env o' hd.packet.hdr.ts.sec (zmqRecordLen o'.slice hd.packet) := ⟨_, rfl⟩
  rw [← hmadeEq, h.slice] at hroom
  rw [← hmadeEq] at hmade
  have hadd := accept_advance hmade.sim hl2 hroom hd.packet.hdr.ts
  rw [← hmade.sim.slice] at hadd
  simp only [zmqAddPacket, ← hmadeEq]
  exact ⟨_, (Advance.refl h hstats).trans (hmade.trans hadd)⟩

/-- The bucket in which a packet is counted at once, `none` when it joins the batch. -/
def zmqVerdict (o : ZmqOutput) (h : Handed) : Option Bucket :=
  if zmqL2Len h.packet = 0 then some .errorDrop
  else if h.direct = .unknown then some .directionDrop
  else if granted o.rateLimitMbps o.throttle (zmqFrameLen o.slice h.packet) h.packet.hdr.ts then
    none
  else some .ratelimitDrop

theorem zmqVerdict_eq_passChecks (hl2 : zmqL2Len hd.packet ≠ 0) :
    zmqVerdict o hd = (passChecks o.rateLimitMbps o.throttle (zmqFrameLen o.slice hd.packet)
      hd.packet.hdr.ts hd.direct).2 := by
  rw [passChecks_snd, zmqVerdict, if_neg hl2]

theorem zmqSendPacket_snd_eq_zero (o : ZmqOutput) (hd : Handed) :
    (zmqSendPacket env o hd).2 = 0 ↔ zmqVerdict o hd = none := by
  by_cases hl2 : zmqL2Len hd.packet = 0
  · simp [zmqSendPacket, zmqVerdict, hl2]
  · simp only [zmqSendPacket, hl2, if_false, ← zmqVerdict_eq_passChecks hl2]
    cases zmqVerdict o hd <;> simp

theorem dropped_advance (h : Sim opts o' B) (hd : Handed) {b : Bucket}
    (hstats : o'.stats = o.stats.count b (UInt64.ofNat (opts.countedLen hd)) 1) (now : ℤ) :
    ∃ B', Advance opts o B (zmqFlushIfStale env o' now) B' [hd] [some b] [] := by
  have hcounted := counted_advance h hd hstats
  obtain ⟨B', hflush⟩ := zmqFlushIfStale_advance env hcounted.sim now
  exact ⟨B', hcounted.trans hflush⟩

/-- A packet is counted at once or joins the batch. -/
theorem zmqSendPacket_advance (h : Sim opts o B) (hd : Handed) :
    ∃ B', Advance opts o B (zmqSendPacket env o hd).1 B' [hd] [zmqVerdict o hd]
      (if (zmqSendPacket env o hd).2 = 0 then [.inl hd] else []) := by
  simp only [zmqSendPacket_snd_eq_zero]
  by_cases hl2 : zmqL2Len hd.packet = 0
  · have hverdict : zmqVerdict o hd = some .errorDrop := by rw [zmqVerdict, if_pos hl2]
    have hlen : hd.packet.hdr.caplen.toUInt64 = UInt64.ofNat (opts.countedLen hd) := by
      rw [ZmqOptions.countedLen, if_pos hl2]
      apply UInt64.toNat_inj.mp
      simp
    simp only [zmqSendPacket, hl2, if_true, hverdict, hlen, reduceCtorEq, if_false]
    refine dropped_advance env ?_ hd ?_ _
    · exact { h with }
    · rfl
  · have hlen : zmqFrameLen o.slice hd.packet = opts.countedLen hd := by
      rw [ZmqOptions.countedLen, if_neg hl2, h.slice]
    simp only [zmqSendPacket, hl2, if_false, ← zmqVerdict_eq_passChecks hl2]
    cases hverdict : zmqVerdict o hd with
    | some b =>
      simp only [hlen, reduceCtorEq, if_false]
      refine dropped_advance env ?_ hd ?_ _
      · exact { h with }
      · rfl
    | none =>
      simp only [if_true]
      refine zmqAddPacket_advance env ?_ hl2 ?_
      · exact { h with }
      · rfl

/-- A heartbeat joins the batch and is sent with it. -/
theorem zmqSendHeartbeatPacket_advance (h : Sim opts o' B) (hstats : o'.stats = o.stats)
    (tv : Timeval) :
    ∃ B', Advance opts o B (zmqSendHeartbeatPacket env o' tv) B' [] [] [.inr tv] := by
  obtain ⟨made, hmade⟩ : ∃ made, made = zmqHeartbeatRoom env o' := ⟨_, rfl⟩
  obtain ⟨batch, hcases, -, hroom⟩ := zmqHeartbeatRoom_pending env h.pending
  rw [← hmade] at hroom hcases
  obtain ⟨B₁, hadv⟩ : ∃ B₁, Advance opts o B made B₁ [] [] [] := by
    rcases hcases with ⟨-, heq⟩ | ⟨-, hne, heq⟩
    · rw [heq]
      exact ⟨B, .refl h hstats⟩
    · rw [heq]
      exact ⟨_, (Advance.refl h hstats).trans (zmqFlushPacket_advance env h hne)⟩
  obtain ⟨started, hstarted⟩ : ∃ started, started = zmqHeartbeatStart env o' tv.sec := ⟨_, rfl⟩
  have hstart : started = if made.pktsNum = 0 then made.startAt tv.sec else made := by
    rw [hstarted, zmqHeartbeatStart, ← hmade]
  have hadv' : Advance opts o B started B₁ [] [] [] := hstart ▸ hadv.startIf _ _
  have hroom' : started.batchBufpos + zmqRecordHdrLen + etherHeaderLen ≤ zmqMaxBatchBufSize := by
    rw [hstart]
    split_ifs <;> exact hroom
  have hinsert := insert_advance hadv'.sim tv hroom'
  have hflush := zmqFlushPacket_advance env hinsert.sim (by simp [Book.insert])
  have hall := hadv'.trans (hinsert.trans hflush)
  rw [zmqSendHeartbeatPacket_eq, ← hstarted]
  exact ⟨_, { hall with sim := { hall.sim with } }⟩

/-- The time of the heartbeat that a heartbeat call generates, if it generates one. -/
def zmqBeat (env : Env) (o : ZmqOutput) (now : ℤ) : Option Timeval :=
  let tv := env.gettimeofday o.clockReads
  if 0 < o.heartbeatMs ∧ o.heartbeatMs - 1000 ≤ (now - o.lastPktTv.sec) * 1000 ∧
    o.heartbeatDue tv then some tv
  else none

theorem zmqBeat_flushIfStale (o : ZmqOutput) (now now' : ℤ) :
    zmqBeat env (zmqFlushIfStale env o now') now = zmqBeat env o now := by
  rw [zmqFlushIfStale]
  split_ifs <;> rfl

/-- **A heartbeat call** flushes a stale batch and generates a heartbeat when one is due. -/
theorem zmqHeartbeat_advance (h : Sim opts o B) (now : ℤ) :
    ∃ B', Advance opts o B (zmqHeartbeat env o now) B' [] []
      ((zmqBeat env o now).map .inr).toList := by
  obtain ⟨B₁, hflush⟩ := zmqFlushIfStale_advance env h now
  rw [← zmqBeat_flushIfStale env o now now]
  simp only [zmqHeartbeat]
  generalize zmqFlushIfStale env o now = flushed at hflush ⊢
  simp only [zmqBeat]
  by_cases hms : flushed.heartbeatMs ≤ 0
  · rw [if_pos hms, if_neg (by omega)]
    exact ⟨B₁, hflush⟩
  by_cases hgate : (now - flushed.lastPktTv.sec) * 1000 < flushed.heartbeatMs - 1000
  · rw [if_neg hms, if_pos hgate, if_neg (by omega)]
    exact ⟨B₁, hflush⟩
  rw [if_neg hms, if_neg hgate]
  by_cases hdue : flushed.heartbeatDue (env.gettimeofday flushed.clockReads) = true
  · rw [if_pos hdue, if_pos ⟨by omega, by omega, hdue⟩]
    have hread : Sim opts { flushed with clockReads := flushed.clockReads + 1 } B₁ :=
      { hflush.sim with }
    obtain ⟨B₂, hbeat⟩ := zmqSendHeartbeatPacket_advance (o := flushed) env hread rfl
      (env.gettimeofday flushed.clockReads)
    exact ⟨B₂, hflush.trans hbeat⟩
  · rw [if_neg hdue, if_neg (fun hall => hdue hall.2.2)]
    exact ⟨B₁, { hflush with sim := { hflush.sim with } }⟩

end Calls

/-! ## Runs -/

/-- A call of the zmq output.
Source: `output_zmq.c` `zmq_output_new`, the functions behind `output.h` -/
def zmqCall (env : Env) (o : ZmqOutput) : Call → ZmqOutput
  | .sendPacket h => (zmqSendPacket env o h).1
  | .heartbeat now => zmqHeartbeat env o now

def zmqRun (env : Env) (o : ZmqOutput) (calls : List Call) : ZmqOutput :=
  calls.foldl (zmqCall env) o

/-- For each packet that the calls hand over, the bucket in which it is counted at once. -/
def zmqVerdicts (env : Env) : ZmqOutput → List Call → List (Option Bucket)
  | _, [] => []
  | o, .sendPacket h :: calls =>
    zmqVerdict o h :: zmqVerdicts env (zmqCall env o (.sendPacket h)) calls
  | o, .heartbeat now :: calls => zmqVerdicts env (zmqCall env o (.heartbeat now)) calls

/-- The packets that are accepted, that is, for which `zmq_send_packet` returns 0, and the
heartbeats that are generated, in call order. -/
def zmqGenerated (env : Env) : ZmqOutput → List Call → List ZmqItem
  | _, [] => []
  | o, .sendPacket h :: calls =>
    (if (zmqSendPacket env o h).2 = 0 then [.inl h] else []) ++
      zmqGenerated env (zmqCall env o (.sendPacket h)) calls
  | o, .heartbeat now :: calls =>
    ((zmqBeat env o now).map .inr).toList ++
      zmqGenerated env (zmqCall env o (.heartbeat now)) calls

/-- **The run lemma.** The book grows by the packets handed over, with their verdicts, and the items
generated. -/
theorem zmqRun_advance (h : Sim opts o B) (calls : List Call) :
    ∃ B', Advance opts o B (zmqRun env o calls) B' (handed calls) (zmqVerdicts env o calls)
      (zmqGenerated env o calls) := by
  induction calls generalizing o B with
  | nil => exact ⟨B, .refl h rfl⟩
  | cons call calls ih =>
    cases call with
    | sendPacket hd =>
      obtain ⟨B₁, hone⟩ := zmqSendPacket_advance env h hd
      obtain ⟨B₂, hrest⟩ := ih hone.sim
      exact ⟨B₂, hone.trans hrest⟩
    | heartbeat now =>
      obtain ⟨B₁, hone⟩ := zmqHeartbeat_advance env h now
      obtain ⟨B₂, hrest⟩ := ih hone.sim
      exact ⟨B₂, hone.trans hrest⟩

theorem zmqOutputDestroy_advance (h : Sim opts o B) :
    ∃ B', Advance opts o B (zmqOutputDestroy env o) B' [] [] [] ∧ B'.current = [] := by
  rw [zmqOutputDestroy]
  split_ifs with hpos
  · exact ⟨_, zmqFlushPacket_advance env h (h.pending.ne_nil hpos), rfl⟩
  · refine ⟨B, .refl h rfl, h.pending.eq_nil ?_⟩
    rwa [UInt16.pos_iff_ne_zero, not_not] at hpos

/-- The output after a list of calls, and after `destroy` if it was destroyed. -/
def zmqAfter (env : Env) (o : ZmqOutput) (calls : List Call) (destroyed : Bool) : ZmqOutput :=
  let o := zmqRun env o calls
  if destroyed then zmqOutputDestroy env o else o

/-- **The life of an output.** Its book holds what the calls handed over and generated. -/
theorem zmqAfter_advance (opts : ZmqOptions) (st : OutputStats) (calls : List Call)
    (destroyed : Bool) :
    ∃ B, Advance opts (zmqOutputNew env opts st) .empty
        (zmqAfter env (zmqOutputNew env opts st) calls destroyed) B (handed calls)
        (zmqVerdicts env (zmqOutputNew env opts st) calls)
        (zmqGenerated env (zmqOutputNew env opts st) calls) ∧
      (destroyed = true → B.current = []) := by
  obtain ⟨B, hrun⟩ := zmqRun_advance env (sim_new env opts st) calls
  cases destroyed with
  | false => exact ⟨B, hrun, fun h => absurd h Bool.false_ne_true⟩
  | true =>
    obtain ⟨B', hdestroy, hnil⟩ := zmqOutputDestroy_advance env hrun.sim
    have hall := hrun.trans hdestroy
    rw [append_nil, append_nil, append_nil] at hall
    exact ⟨B', hall, fun _ => hnil⟩

end CloudProbe.Worker
