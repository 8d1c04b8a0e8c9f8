import CloudProbe.Worker.FileOutputs
import CloudProbe.Worker.Gre
import CloudProbe.Worker.Vxlan
import CloudProbe.Worker.ZmqBook

/-!
# Counter conservation

The five output types behind `output.h` with the calls they get (`Output`), and what the counters of
an output say after any calls (`Conserved`). The ledger lists every packet handed over with the
bucket it is counted in.
-/

namespace CloudProbe.Worker

open Lib List

/-! ## The outputs -/

/-- The options of an output, by type.
Source: `config.h` `OutputConfig` -/
inductive OutputOptions where
  | zmq (opts : ZmqOptions)
  | vxlan (opts : VxlanOptions)
  | gre (opts : GreOptions)
  | file (opts : FileOptions)
  | rotatingFile (opts : RotatingFileOptions)
deriving DecidableEq

/-- An output: the structures behind `output_base_t`.
Source: `output.h` -/
inductive Output where
  | zmq (o : ZmqOutput)
  | vxlan (o : VxlanOutput)
  | gre (o : GreOutput)
  | file (o : FileOutput)
  | rotatingFile (o : RotatingFileOutput)
deriving DecidableEq

/-- A new output that counts in `stats`.
Source: `task.c` `capture_task_new` -/
def Output.new (env : Env) (stats : OutputStats) : OutputOptions → Output
  | .zmq opts => .zmq (zmqOutputNew env opts stats)
  | .vxlan opts => .vxlan (vxlanOutputNew opts stats)
  | .gre opts => .gre (greOutputNew opts stats)
  | .file opts => .file (fileOutputNew opts stats)
  | .rotatingFile opts => .rotatingFile (rotatingFileOutputNew opts stats)

namespace Output

def stats : Output → OutputStats
  | .zmq o => o.stats
  | .vxlan o => o.stats
  | .gre o => o.stats
  | .file o => o.stats
  | .rotatingFile o => o.stats

/-- Source: `output.h` `output_send_packet` -/
def sendPacket (env : Env) (h : Handed) : Output → Output
  | .zmq o => .zmq (zmqSendPacket env o h).1
  | .vxlan o => .vxlan (vxlanSendPacket env o h).1
  | .gre o => .gre (greSendPacket env o h).1
  | .file o => .file (fileWritePacket o h).1
  | .rotatingFile o => .rotatingFile (rotatingFileWritePacket env o h).1

/-- Only the zmq output has a heartbeat function.
Source: `output.h` `output_heartbeat` -/
def heartbeat (env : Env) (now : ℤ) : Output → Output
  | .zmq o => .zmq (zmqHeartbeat env o now)
  | .vxlan o => .vxlan o
  | .gre o => .gre o
  | .file o => .file o
  | .rotatingFile o => .rotatingFile o

/-- What `destroy` does before the output is freed.
Source: `output.h` `destroy_output` -/
def destroy (env : Env) : Output → Output
  | .zmq o => .zmq (zmqOutputDestroy env o)
  | .vxlan o => .vxlan o
  | .gre o => .gre o
  | .file o => .file o
  | .rotatingFile o => .rotatingFile o

def call (env : Env) (o : Output) : Call → Output
  | .sendPacket h => o.sendPacket env h
  | .heartbeat now => o.heartbeat env now

/-- The output after a list of calls, and after `destroy` if it was destroyed. -/
def after (env : Env) (o : Output) (calls : List Call) (destroyed : Bool) : Output :=
  let o := calls.foldl (call env) o
  if destroyed then o.destroy env else o

/-- The bucket in which a packet is counted at once; `none` when the zmq output puts it in the
batch. -/
def verdict (env : Env) (h : Handed) : Output → Option Bucket
  | .zmq o => zmqVerdict o h
  | .vxlan o => some (vxlanBucket env o h)
  | .gre o => some (greBucket env o h)
  | .file o => some (fileBucket o h)
  | .rotatingFile o => some (rotatingFileBucket env o h)

def verdicts (env : Env) : Output → List Call → List (Option Bucket)
  | _, [] => []
  | o, .sendPacket h :: calls =>
    o.verdict env h :: verdicts env (o.call env (.sendPacket h)) calls
  | o, .heartbeat now :: calls => verdicts env (o.call env (.heartbeat now)) calls

end Output

/-- The length a packet counts with: that of `output_frame_len` for the slice and the cap of the
output. The zmq output keeps at least the layer-2 headers, and counts all captured bytes of a packet
whose layer-2 headers are cut. -/
def OutputOptions.countedLen (opts : OutputOptions) (h : Handed) : ℕ :=
  match opts with
  | .zmq opts =>
    if zmqL2Len h.packet = 0 then h.packet.hdr.caplen.toNat
    else max (outputFrameLen h.packet.hdr.caplen opts.slice zmqMaxFrameLen) (zmqL2Len h.packet)
  | .vxlan opts => outputFrameLen h.packet.hdr.caplen opts.slice vxlanMaxFrameLen
  | .gre opts => outputFrameLen h.packet.hdr.caplen opts.slice greMaxFrameLen
  | .file opts => outputFrameLen h.packet.hdr.caplen opts.slice fileMaxFrameLen
  | .rotatingFile opts => outputFrameLen h.packet.hdr.caplen opts.slice fileMaxFrameLen

/-! ## The contract -/

/-- What stands behind the entries of the ledger that were not counted at once: for zmq the batches.
The packets of a closed batch are counted by its outcome, those of the open one not yet, and
`heartbeat_packets` grew by the heartbeats that were sent. -/
def Explained (st : OutputStats) (ledger : Ledger Handed Bucket) : OutputOptions → Output → Prop
  | .zmq opts, .zmq o => ∃ B : Book Handed Timeval Bucket, B.ledger = ledger ∧ Sim opts o B ∧
      ledger.total (fun _ => 1) none = (o.pktsNum - o.heartbeatNum).toNat ∧
      ledger.total (OutputOptions.zmq opts).countedLen none = o.dataBytes.toNat ∧
      o.stats.heartbeatPackets.value =
        (st.heartbeatPackets.value + B.delivered .fwd) % CarryCounter.span petaInPackets
  | _, o => ledger.queued = [] ∧ o.stats.heartbeatPackets = st.heartbeatPackets

structure Conserved (env : Env) (opts : OutputOptions) (st : OutputStats) (calls : List Call)
    (destroyed : Bool) (ledger : Ledger Handed Bucket) : Prop where
  /-- every packet handed over has one entry -/
  handed : ledger.map Prod.fst = handed calls
  /-- each bucket counts the packets of its entries -/
  packets : ∀ b, (((Output.new env st opts).after env calls destroyed).stats.packets b).value =
    ((st.packets b).value + ledger.total (fun _ => 1) (some b)) % CarryCounter.span petaInPackets
  /-- and the bytes of its entries -/
  bytes : ∀ b, (((Output.new env st opts).after env calls destroyed).stats.bytes b).value =
    ((st.bytes b).value + ledger.total opts.countedLen (some b)) % CarryCounter.span eibInBytes
  /-- what is counted at once is counted by what happened in its call -/
  verdicts : ledger.verdicts = (Output.new env st opts).verdicts env calls
  explained : Explained st ledger opts ((Output.new env st opts).after env calls destroyed)
  /-- nothing is left when the output is destroyed -/
  settled : destroyed = true → ∀ e ∈ ledger, e.2.bucket ≠ none

/-! ## Outputs that count at once -/

/-- The output is of the type of the options and has their slice; it is not the zmq output. -/
def Immediate : OutputOptions → Output → Prop
  | .vxlan opts, .vxlan o => o.slice = opts.slice
  | .gre opts, .gre o => o.slice = opts.slice
  | .file opts, .file o => o.slice = opts.slice
  | .rotatingFile opts, .rotatingFile o => o.slice = opts.slice
  | _, _ => False

variable {o : Output} {opts : OutputOptions} (env : Env)

/-- **A packet handed over** is counted at once by an output other than zmq. -/
theorem Immediate.sendPacket (h : Immediate opts o) (hd : Handed) :
    ∃ b, o.verdict env hd = some b ∧
      (o.sendPacket env hd).stats =
        o.stats.count b (UInt64.ofNat (opts.countedLen hd)) 1 ∧
      Immediate opts (o.sendPacket env hd) := by
  have hcap : ∀ slice : ℤ, (slicedCaplen slice hd.packet.hdr.caplen).toUInt64 =
      UInt64.ofNat (outputFrameLen hd.packet.hdr.caplen slice fileMaxFrameLen) := by
    intro slice
    rw [← toNat_slicedCaplen]
    apply UInt64.toNat_inj.mp
    simp
  cases opts with
  | zmq opts => exact absurd h (by simp [Immediate])
  | vxlan opts =>
    cases o with
    | vxlan o =>
      have hslice : o.slice = opts.slice := h
      refine ⟨_, rfl, ?_, (vxlanSendPacket_slice env o hd).trans hslice⟩
      rw [OutputOptions.countedLen, ← hslice]
      exact vxlanSendPacket_stats env o hd
    | _ => exact absurd h (by simp [Immediate])
  | gre opts =>
    cases o with
    | gre o =>
      have hslice : o.slice = opts.slice := h
      refine ⟨_, rfl, ?_, (greSendPacket_slice env o hd).trans hslice⟩
      rw [OutputOptions.countedLen, ← hslice]
      exact greSendPacket_stats env o hd
    | _ => exact absurd h (by simp [Immediate])
  | file opts =>
    cases o with
    | file o =>
      have hslice : o.slice = opts.slice := h
      refine ⟨_, rfl, ?_, (fileWritePacket_slice o hd).trans hslice⟩
      rw [OutputOptions.countedLen, ← hslice, ← hcap]
      exact fileWritePacket_stats o hd
    | _ => exact absurd h (by simp [Immediate])
  | rotatingFile opts =>
    cases o with
    | rotatingFile o =>
      have hslice : o.slice = opts.slice := h
      refine ⟨_, rfl, ?_, (rotatingFileWritePacket_slice env o hd).trans hslice⟩
      rw [OutputOptions.countedLen, ← hslice, ← hcap]
      exact rotatingFileWritePacket_stats env o hd
    | _ => exact absurd h (by simp [Immediate])

theorem Immediate.heartbeat (h : Immediate opts o) (now : ℤ) : o.heartbeat env now = o := by
  cases o with
  | zmq o => cases opts <;> exact h.elim
  | vxlan o | gre o | file o | rotatingFile o => rfl

/-- A counted length fits 64 bits. -/
theorem OutputOptions.countedLen_lt (opts : OutputOptions) (h : Handed) :
    opts.countedLen h < 2 ^ 64 := by
  have hcap : h.packet.hdr.caplen.toNat < 2 ^ 32 := h.packet.hdr.caplen.toNat_lt
  have hle : ∀ slice maxLen, outputFrameLen h.packet.hdr.caplen slice maxLen < 2 ^ 32 :=
    fun slice maxLen => Nat.lt_of_le_of_lt (outputFrameLen_le_caplen _ _ _) hcap
  cases opts with
  | zmq opts =>
    simp only [countedLen]
    split_ifs with hl2
    · omega
    · obtain ⟨-, -, hl2Le⟩ := zmqL2Len_bounds hl2
      have h₁ := hle opts.slice zmqMaxFrameLen
      have h₂ := hle 0 zmqMaxFrameLen
      omega
  | vxlan opts => exact (hle opts.slice vxlanMaxFrameLen).trans (by decide)
  | gre opts => exact (hle opts.slice greMaxFrameLen).trans (by decide)
  | file opts | rotatingFile opts => exact (hle opts.slice fileMaxFrameLen).trans (by decide)

/-- **The run lemma** for outputs that count every packet at once. -/
theorem Immediate.run (h : Immediate opts o) (calls : List Call) (l : Ledger Handed Bucket) :
    ∃ l', Posted opts.countedLen o.stats (calls.foldl (Output.call env) o).stats l (l ++ l') ∧
      l'.map Prod.fst = handed calls ∧ Ledger.verdicts l' = o.verdicts env calls ∧
      (∀ e ∈ l', ∃ b, e.2 = .counted b) ∧
      (calls.foldl (Output.call env) o).stats.heartbeatPackets = o.stats.heartbeatPackets ∧
      Immediate opts (calls.foldl (Output.call env) o) := by
  induction calls generalizing o l with
  | nil =>
    refine ⟨[], ?_, rfl, rfl, by simp, rfl, h⟩
    rw [append_nil]
    exact Posted.refl _ _
  | cons call calls ih =>
    cases call with
    | heartbeat now =>
      have hsame : o.call env (.heartbeat now) = o := h.heartbeat env now
      obtain ⟨l', hposted, hhanded, hverdicts, hrest⟩ := ih h l
      rw [← hsame] at hverdicts
      refine ⟨l', ?_, hhanded, hverdicts, ?_⟩
      · rw [foldl_cons, hsame]
        exact hposted
      · rw [foldl_cons, hsame]
        exact hrest
    | sendPacket hd =>
      obtain ⟨b, hb, hstats, himm⟩ := h.sendPacket env hd
      obtain ⟨l', hposted, hhanded, hverdicts, hcounted, hbeats, hlast⟩ :=
        ih himm (l ++ [(hd, .counted b)])
      have hone : Posted opts.countedLen o.stats (o.sendPacket env hd).stats l
          (l ++ [(hd, .counted b)]) :=
        hstats ▸ Posted.counted o.stats l hd b (opts.countedLen_lt hd)
      refine ⟨(hd, .counted b) :: l', ?_, ?_, ?_, ?_, ?_, hlast⟩
      · rw [append_cons]
        exact hone.trans hposted
      · rw [map_cons, hhanded]
        rfl
      · rw [Output.verdicts, hb]
        exact congrArg _ hverdicts
      · intro e he
        rcases mem_cons.mp he with rfl | he
        · exact ⟨b, rfl⟩
        · exact hcounted e he
      · rw [foldl_cons]
        refine hbeats.trans ?_
        rw [hstats, OutputStats.heartbeatPackets_count]

/-- Outputs that count at once conserve the packets. -/
theorem Immediate.conserved (opts : OutputOptions) (st : OutputStats)
    (h : Immediate opts (Output.new env st opts)) (hst : (Output.new env st opts).stats = st)
    (calls : List Call) (destroyed : Bool) : ∃ l, Conserved env opts st calls destroyed l := by
  obtain ⟨l, hposted, hhanded, hverdicts, hcounted, hbeats, hlast⟩ := h.run env calls []
  rw [nil_append, hst] at hposted
  have hafter : (Output.new env st opts).after env calls destroyed =
      calls.foldl (Output.call env) (Output.new env st opts) := by
    rw [Output.after]
    generalize calls.foldl (Output.call env) (Output.new env st opts) = o at hlast
    split_ifs
    · cases o with
      | zmq o => cases opts <;> exact hlast.elim
      | vxlan o | gre o | file o | rotatingFile o => rfl
    · rfl
  refine ⟨l, hhanded, ?_, ?_, hverdicts, ?_, ?_⟩
  · rw [hafter]
    exact hposted.value_packets
  · rw [hafter]
    exact hposted.value_bytes
  · rw [hafter]
    have hqueued : l.queued = [] := by
      rw [Ledger.queued, filterMap_eq_nil_iff]
      intro e he
      obtain ⟨b, hb⟩ := hcounted e he
      rw [hb]
      rfl
    rw [hst] at hbeats
    generalize calls.foldl (Output.call env) (Output.new env st opts) = o at hlast hbeats ⊢
    cases opts with
    | zmq opts => exact absurd hlast (by simp [Immediate])
    | _ => exact ⟨hqueued, hbeats⟩
  · intro _ e he
    obtain ⟨b, hb⟩ := hcounted e he
    rw [hb]
    simp [Fate.bucket]

/-! ## The zmq output -/

theorem foldl_zmq (o : ZmqOutput) (calls : List Call) :
    calls.foldl (Output.call env) (.zmq o) = .zmq (zmqRun env o calls) := by
  induction calls generalizing o with
  | nil => rfl
  | cons call calls ih =>
    rw [foldl_cons, zmqRun, foldl_cons]
    cases call with
    | sendPacket h | heartbeat now => exact ih _

theorem after_zmq (opts : ZmqOptions) (st : OutputStats) (calls : List Call) (destroyed : Bool) :
    (Output.new env st (.zmq opts)).after env calls destroyed =
      .zmq (zmqAfter env (zmqOutputNew env opts st) calls destroyed) := by
  simp only [Output.after, Output.new, foldl_zmq, zmqAfter]
  cases destroyed <;> rfl

theorem verdicts_zmq (o : ZmqOutput) (calls : List Call) :
    (Output.zmq o).verdicts env calls = zmqVerdicts env o calls := by
  induction calls generalizing o with
  | nil => rfl
  | cons call calls ih =>
    cases call with
    | sendPacket h => exact congrArg _ (ih _)
    | heartbeat now => exact ih _

theorem countedLen_zmq (opts : ZmqOptions) :
    opts.countedLen = (OutputOptions.zmq opts).countedLen := by
  funext h
  rw [ZmqOptions.countedLen, OutputOptions.countedLen, zmqFrameLen]
  split_ifs <;> omega

/-- The zmq output conserves the packets. -/
theorem zmq_conserved (opts : ZmqOptions) (st : OutputStats) (calls : List Call) (destroyed : Bool)
    : ∃ l, Conserved env (.zmq opts) st calls destroyed l := by
  obtain ⟨B', hadv, hempty⟩ := zmqAfter_advance env opts st calls destroyed
  have hafter := after_zmq env opts st calls destroyed
  have hsim := hadv.sim
  have hposted := hadv.posted
  rw [countedLen_zmq] at hposted
  have hnone : ∀ f : Handed → ℕ, B'.ledger.total f none = ((accounted B'.current).map f).sum :=
    B'.total_none
  refine ⟨B'.ledger, ?_, ?_, ?_, ?_, ?_, ?_⟩
  · exact hadv.handed
  · rw [hafter]
    exact hposted.value_packets
  · rw [hafter]
    exact hposted.value_bytes
  · rw [Output.new, verdicts_zmq]
    exact hadv.verdicts
  · rw [hafter]
    refine ⟨B', rfl, hsim, ?_, ?_, ?_⟩
    · rw [hsim.dataNum, hnone]
      simp
    · rw [hsim.data, countedLen_zmq, hnone]
    · exact CarryCounter.value_eq_mod hadv.heartbeats
  · intro hdestroyed
    exact B'.bucket_ne_none (hempty hdestroyed)

/-! ## The result -/

theorem exists_conserved (opts : OutputOptions) (st : OutputStats) (calls : List Call)
    (destroyed : Bool) : ∃ l, Conserved env opts st calls destroyed l := by
  cases opts with
  | zmq opts => exact zmq_conserved env opts st calls destroyed
  | vxlan opts => exact Immediate.conserved env (.vxlan opts) st rfl rfl calls destroyed
  | gre opts => exact Immediate.conserved env (.gre opts) st rfl rfl calls destroyed
  | file opts => exact Immediate.conserved env (.file opts) st rfl rfl calls destroyed
  | rotatingFile opts =>
    exact Immediate.conserved env (.rotatingFile opts) st rfl rfl calls destroyed

/-- **Counter conservation.** Each packet handed over is counted once, in one of the four buckets,
apart from the data records of the open zmq batch, of which none is left after `destroy`. Source:
`docs/REFACTOR-CPCTL.md` §6.2 -/
theorem counters_conserved (env : Env) (opts : OutputOptions) (st : OutputStats)
    (calls : List Call) (destroyed : Bool) :
    (∃ ledger, Conserved env opts st calls destroyed ledger ∧
      ∀ f : Handed → ℕ, ledger.total f (some .fwd) + ledger.total f (some .directionDrop) +
        ledger.total f (some .ratelimitDrop) + ledger.total f (some .errorDrop) +
        ledger.total f none = ((handed calls).map f).sum) ∧
    (∀ (o : VxlanOutput) (h : Handed), (Output.vxlan o).verdict env h = some .fwd ↔
      h.direct ≠ .unknown ∧
        granted o.rateLimitMbps o.throttle (vxlanFrameLen o.slice h.packet) h.packet.hdr.ts = true ∧
        fullySent (vxlanCalls env o h) = vxlanDatagrams env.sse2 o h) ∧
    (∀ (o : GreOutput) (h : Handed), (Output.gre o).verdict env h = some .fwd ↔
      h.direct ≠ .unknown ∧
        granted o.rateLimitMbps o.throttle (greFrameLen o.slice h.packet) h.packet.hdr.ts = true ∧
        fullySent (greCalls env o h) = [grePacket o h]) := by
  refine ⟨?_, ?_, ?_⟩
  · obtain ⟨l, hl⟩ := exists_conserved env opts st calls destroyed
    refine ⟨l, hl, fun f => ?_⟩
    rw [total_buckets, hl.handed]
  · intro o h
    rw [Output.verdict, Option.some_inj, vxlanBucket, outcomeBucket_eq_fwd]
  · intro o h
    rw [Output.verdict, Option.some_inj, greBucket, outcomeBucket_eq_fwd]

end CloudProbe.Worker
