import CloudProbe.Lib.SharedCounters
import CloudProbe.Worker.Conservation
import CloudProbe.Worker.Threads

/-!
# The counters that all outputs share

All outputs count in one `output_stats_t`, `stats_summary.output` of the task manager, by plain
additions. The reload thread flushes the zmq outputs of the tasks it destroys while the main thread
(run to completion) or the output thread (pipeline) sends.

* **Outputs** (`outputAt`): an output with counters of its own. They tell how much each call adds to
  which counter, and in what order (`OutputStats.log`, `Grew`).
* **Threads and counters** (`Counting.step`): a step of the worker issues the additions of its
  calls; its thread makes them, a load or a store at a time, before it goes on.
* **The result** (`Tallied`): as long as no two threads add to one counter at the same time, the
  shared counters have what all outputs have added.
-/

namespace CloudProbe.Worker

open CloudProbe.Lib List

/-! ### Additions -/

/-- The counter counts modulo its span. -/
def Counter.span : Counter → ℕ
  | .bytes _ => CarryCounter.span eibInBytes
  | .packets _ | .heartbeats => CarryCounter.span petaInPackets

theorem Counter.span_pos (c : Counter) : 0 < c.span := by
  have hbytes : 0 < CarryCounter.span eibInBytes := by decide
  have hpackets : 0 < CarryCounter.span petaInPackets := by decide
  cases c <;> assumption

def OutputStats.value (st : OutputStats) : Counter → ℕ
  | .bytes b => (st.bytes b).value
  | .packets b => (st.packets b).value
  | .heartbeats => st.heartbeatPackets.value

@[simp] theorem OutputStats.value_zero (c : Counter) : OutputStats.zero.value c = 0 := by
  rcases c with b | b | _
  · cases b <;> rfl
  · cases b <;> rfl
  · rfl

/-- From `st` to `st'` the counters grew by the additions that the history gained. -/
def Grew (st st' : OutputStats) : Prop :=
  ∃ adds, st'.log = st.log ++ adds ∧ ∀ c, st'.value c ≡ st.value c + added adds c [MOD c.span]

theorem Grew.refl (st : OutputStats) : Grew st st :=
  ⟨[], (append_nil _).symm, fun _ => Nat.ModEq.refl _⟩

theorem Grew.trans {st st' st'' : OutputStats} (h : Grew st st') (h' : Grew st' st'') :
    Grew st st'' := by
  obtain ⟨adds, hlog, hvalue⟩ := h
  obtain ⟨adds', hlog', hvalue'⟩ := h'
  refine ⟨adds ++ adds', by rw [hlog', hlog, append_assoc], fun c => ?_⟩
  rw [added_append, ← Nat.add_assoc]
  exact (hvalue' c).trans ((hvalue c).add_right _)

theorem grew_count (st : OutputStats) (b : Bucket) (n m : UInt64) : Grew st (st.count b n m) := by
  refine ⟨[(.bytes b, n.toNat), (.packets b, m.toNat)], by cases b <;> rfl, fun c => ?_⟩
  cases c with
  | bytes b' =>
    by_cases hb : b = b'
    · simp only [OutputStats.value, OutputStats.bytes_count, hb, added_cons, added_nil, if_true,
        reduceCtorEq, if_false]
      exact CarryCounter.value_add _ _ n
    · simp [OutputStats.value, OutputStats.bytes_count, hb, Nat.ModEq]
  | packets b' =>
    by_cases hb : b = b'
    · simp only [OutputStats.value, OutputStats.packets_count, hb, added_cons, added_nil, if_true,
        reduceCtorEq, if_false, Nat.zero_add]
      exact CarryCounter.value_add _ _ m
    · simp [OutputStats.value, OutputStats.packets_count, hb, Nat.ModEq]
  | heartbeats => simp [OutputStats.value, Nat.ModEq]

theorem Grew.of_count {st st' : OutputStats} {b : Bucket} {n m : UInt64}
    (h : st' = st.count b n m) : Grew st st' :=
  h ▸ grew_count st b n m

theorem grew_countHeartbeats (st : OutputStats) (n : UInt64) : Grew st (st.countHeartbeats n) := by
  refine ⟨[(.heartbeats, n.toNat)], rfl, fun c => ?_⟩
  cases c with
  | heartbeats => exact CarryCounter.value_add (by decide) _ n
  | _ => simp [OutputStats.value, Nat.ModEq]

variable (env : Env) (o : ZmqOutput)

theorem grew_zmqFlushPacket :
    Grew o.stats (zmqFlushPacket env o).stats := by
  simp only [zmqFlushPacket]
  split_ifs
  · exact (grew_count _ _ _ _).trans (grew_countHeartbeats _ _)
  · exact grew_count _ _ _ _

theorem grew_zmqFlushIfStale (now : ℤ) :
    Grew o.stats (zmqFlushIfStale env o now).stats := by
  unfold zmqFlushIfStale
  split_ifs
  · exact grew_zmqFlushPacket env o
  · exact Grew.refl _

theorem grew_zmqMakeRoom (sec : ℤ) (recordLen : ℕ) :
    Grew o.stats (zmqMakeRoom env o sec recordLen).stats := by
  simp only [zmqMakeRoom, ZmqOutput.startAt]
  split_ifs
  all_goals first | exact Grew.refl _ | exact grew_zmqFlushPacket env _

theorem grew_zmqSendPacket (h : Handed) :
    Grew o.stats (zmqSendPacket env o h).1.stats := by
  simp only [zmqSendPacket]
  split_ifs
  · exact (grew_count _ _ _ _).trans (grew_zmqFlushIfStale env _ _)
  · split
    · exact (grew_count _ _ _ _).trans (grew_zmqFlushIfStale env _ _)
    · exact grew_zmqMakeRoom env { o with throttle := _ } _ _

theorem grew_zmqSendHeartbeatPacket (tv : Timeval) :
    Grew o.stats (zmqSendHeartbeatPacket env o tv).stats := by
  refine Grew.trans ?_ (grew_zmqFlushPacket env _)
  simp only [zmqAppend, ZmqOutput.startAt]
  split_ifs
  all_goals first | exact Grew.refl _ | exact grew_zmqFlushPacket env _

theorem grew_zmqHeartbeat (now : ℤ) :
    Grew o.stats (zmqHeartbeat env o now).stats := by
  have hflushed := grew_zmqFlushIfStale env o now
  simp only [zmqHeartbeat]
  generalize zmqFlushIfStale env o now = flushed at hflushed ⊢
  split_ifs
  · exact hflushed
  · exact hflushed
  · refine hflushed.trans ?_
    exact grew_zmqSendHeartbeatPacket env { flushed with clockReads := flushed.clockReads + 1 } _
  · exact hflushed

/-- **Additions of a call**: the counters grow by the additions that are made. -/
theorem Output.grew_call (o : Output) (call : Call) :
    Grew o.stats (o.call env call).stats := by
  cases call with
  | sendPacket h =>
    cases o with
    | zmq o => exact grew_zmqSendPacket env o h
    | vxlan o => exact .of_count (vxlanSendPacket_stats env o h)
    | gre o => exact .of_count (greSendPacket_stats env o h)
    | file o => exact .of_count (fileWritePacket_stats o h)
    | rotatingFile o => exact .of_count (rotatingFileWritePacket_stats env o h)
  | heartbeat now =>
    cases o with
    | zmq o => exact grew_zmqHeartbeat env o now
    | _ => exact Grew.refl _

theorem Output.grew_destroy (o : Output) : Grew o.stats (o.destroy env).stats := by
  cases o with
  | zmq o =>
    simp only [Output.destroy, zmqOutputDestroy]
    split_ifs
    · exact grew_zmqFlushPacket env o
    · exact Grew.refl _
  | _ => exact Grew.refl _

/-! ### The outputs of the worker -/

/-- The call of an output as the callbacks and the output thread make it. -/
def Call.toOutputCall : Call → OutputCall
  | .sendPacket h => .sendPacket h.packet.hdr h.packet.data h.direct
  | .heartbeat now => .heartbeat now

/-- The call an output gets, if the data has the captured length. -/
def OutputCall.toCall : OutputCall → Option Call
  | .sendPacket hdr data direct =>
    if h : data.length = hdr.caplen.toNat then some (.sendPacket ⟨⟨hdr, data, h⟩, direct⟩) else none
  | .heartbeat now => some (.heartbeat now)

@[simp] theorem Call.toCall_toOutputCall (c : Call) : c.toOutputCall.toCall = some c := by
  cases c with
  | sendPacket h => exact dif_pos h.packet.data_length
  | heartbeat now => rfl

def Output.live (env : Env) (o : Output) : Option OutputCall → Output
  | some c => c.toCall.elim o (o.call env)
  | none => o.destroy env

theorem Output.grew_live (life : List (Option OutputCall)) (o : Output) :
    Grew o.stats (life.foldl (Output.live env) o).stats := by
  induction life generalizing o with
  | nil => exact Grew.refl _
  | cons c life ih =>
    refine Grew.trans ?_ (ih _)
    cases c with
    | none => exact o.grew_destroy env
    | some c =>
      rw [Output.live]
      cases c.toCall with
      | none => exact Grew.refl _
      | some call => exact o.grew_call env call

namespace Threads

/-- The calls that output `i` of a task gets, oldest first; `none` destroys it. -/
def lifeOf (t : CaptureTask) (i : ℕ) (calls : List Call) : List (Option OutputCall) :=
  calls.filterMap fun
    | .sent c => if c.user = t ∧ c.output = i then some (some c.call) else none
    | .destroyed u => if u = t then some none else none

/-- The outputs that get a call. -/
def Call.outputs : Call → List (CaptureTask × ℕ)
  | .sent c => [(c.user, c.output)]
  | .destroyed t => (List.range (numOutputs t)).map (t, ·)

theorem Call.nodup_outputs (call : Call) : call.outputs.Nodup := by
  cases call with
  | sent c => exact nodup_singleton _
  | destroyed t => exact nodup_range.map fun i j h => (Prod.ext_iff.mp h).2

end Threads

namespace Counting

open Threads (lifeOf numOutputs)

/-- What the outputs have from outside, by task and position in `outputs`: the results of their
system calls, and their options. -/
structure Setup where
  env : CaptureTask × ℕ → Env
  opts : CaptureTask × ℕ → OutputOptions

variable (u : Setup)

/-- Output `k` after the calls so far, with counters of its own that started at zero. -/
def outputAt (calls : List Threads.Call) (k : CaptureTask × ℕ) : Output :=
  (lifeOf k.1 k.2 calls).foldl (Output.live (u.env k)) (Output.new (u.env k) .zero (u.opts k))

/-- The additions of a call, in the order in which they are made.
Source: `task.c` `capture_task_new`, where all outputs get `stats_summary.output` -/
def callAdds (before : List Threads.Call) (call : Threads.Call) : List (Counter × ℕ) :=
  call.outputs.flatMap fun k =>
    (outputAt u (before ++ [call]) k).stats.log.drop (outputAt u before k).stats.log.length

def newAdds : List Threads.Call → List Threads.Call → List (Counter × ℕ)
  | _, [] => []
  | before, call :: new => callAdds u before call ++ newAdds (before ++ [call]) new

theorem newAdds_append (before new new' : List Threads.Call) :
    newAdds u before (new ++ new') = newAdds u before new ++ newAdds u (before ++ new) new' := by
  induction new generalizing before with
  | nil => rw [append_nil]; rfl
  | cons call new ih => simp [newAdds, ih]

theorem grew_outputAt (before new : List Threads.Call) (k : CaptureTask × ℕ) :
    Grew (outputAt u before k).stats (outputAt u (before ++ new) k).stats := by
  rw [outputAt, outputAt, lifeOf, lifeOf, filterMap_append, foldl_append]
  exact Output.grew_live _ _ _

theorem stats_outputAt_nil (k : CaptureTask × ℕ) : (outputAt u [] k).stats = .zero := by
  rw [outputAt, lifeOf, filterMap_nil, foldl_nil]
  cases u.opts k <;> rfl

/-- A call changes only the outputs it is for. -/
theorem outputAt_snoc {k : CaptureTask × ℕ} {call : Threads.Call} (hk : k.2 < numOutputs k.1)
    (hnot : k ∉ call.outputs) (before : List Threads.Call) :
    outputAt u (before ++ [call]) k = outputAt u before k := by
  have hnone : lifeOf k.1 k.2 [call] = [] := by
    cases call with
    | sent c =>
      have hne : ¬(c.user = k.1 ∧ c.output = k.2) := by
        rintro ⟨huser, houtput⟩
        exact hnot (mem_singleton.mpr (Prod.ext huser.symm houtput.symm))
      simp [lifeOf, hne]
    | destroyed t =>
      have hne : t ≠ k.1 := by
        rintro rfl
        exact hnot (mem_map.mpr ⟨k.2, mem_range.mpr hk, rfl⟩)
      simp [lifeOf, hne]
  rw [lifeOf] at hnone
  rw [outputAt, outputAt, lifeOf, lifeOf, filterMap_append, hnone, append_nil]

/-- A sum over a list without duplicates that vanishes outside a part of it. -/
theorem sum_map_part {κ : Type*} [DecidableEq κ] {l part : List κ} [DecidablePred (· ∈ part)]
    (hl : l.Nodup) (hpart : part.Nodup) (hsub : part ⊆ l) (f : κ → ℕ) :
    (l.map fun k => if k ∈ part then f k else 0).sum = (part.map f).sum := by
  have hfilter : l.toFinset.filter (· ∈ part) = part.toFinset := by
    ext k
    simp only [Finset.mem_filter, mem_toFinset]
    exact ⟨And.right, fun hk => ⟨hsub hk, hk⟩⟩
  rw [← sum_toFinset _ hl, ← sum_toFinset _ hpart, ← Finset.sum_filter, hfilter]

/-- **All additions.** What the calls have added is what the outputs have added. -/
theorem added_newAdds {outputs : List (CaptureTask × ℕ)} (hnodup : outputs.Nodup)
    (hindex : ∀ k ∈ outputs, k.2 < numOutputs k.1) {calls : List Threads.Call}
    (hcalls : ∀ call ∈ calls, call.outputs ⊆ outputs) (c : Counter) :
    added (newAdds u [] calls) c =
      (outputs.map fun k => added (outputAt u calls k).stats.log c).sum := by
  induction calls using List.reverseRecOn with
  | nil =>
    symm
    apply sum_eq_zero
    intro n hn
    obtain ⟨k, -, rfl⟩ := mem_map.mp hn
    rw [stats_outputAt_nil]
    rfl
  | append_singleton calls call ih =>
    have hstep : ∀ k ∈ outputs, added (outputAt u (calls ++ [call]) k).stats.log c =
        added (outputAt u calls k).stats.log c +
          if k ∈ call.outputs then added ((outputAt u (calls ++ [call]) k).stats.log.drop
            (outputAt u calls k).stats.log.length) c else 0 := by
      intro k hk
      split_ifs with hto
      · obtain ⟨adds, hlog, -⟩ := grew_outputAt u calls [call] k
        rw [hlog, drop_left, added_append]
      · rw [outputAt_snoc u (hindex k hk) hto, Nat.add_zero]
    rw [newAdds_append, added_append, ih fun call hmem => hcalls call (mem_append_left _ hmem),
      map_congr_left hstep, sum_map_add,
      sum_map_part hnodup call.nodup_outputs (hcalls call (by simp))]
    simp [newAdds, callAdds, added_flatMap]

theorem sum_modEq {κ : Type*} {n : ℕ} {f g : κ → ℕ} {l : List κ}
    (h : ∀ k ∈ l, f k ≡ g k [MOD n]) : (l.map f).sum ≡ (l.map g).sum [MOD n] := by
  induction l with
  | nil => exact Nat.ModEq.refl _
  | cons k l ih => exact (h k (.head _)).add (ih fun k hk => h k (.tail _ hk))

/-- An output adds to its counters from zero. -/
theorem value_outputAt (calls : List Threads.Call) (k : CaptureTask × ℕ) (c : Counter) :
    (outputAt u calls k).stats.value c ≡ added (outputAt u calls k).stats.log c [MOD c.span] := by
  obtain ⟨adds, hlog, hvalue⟩ := grew_outputAt u [] calls k
  have hgrown := hvalue c
  rw [stats_outputAt_nil] at hlog hgrown
  rw [OutputStats.value_zero, Nat.zero_add] at hgrown
  rw [show (outputAt u calls k).stats.log = adds from hlog]
  exact hgrown

/-! ### Threads and counters -/

inductive Thread where
  | main
  | reload
  | output
deriving DecidableEq

instance : Fintype Thread := ⟨{.main, .reload, .output}, fun t => by cases t <;> decide⟩

def threadOf : Threads.Act → Option Thread
  | .main _ => some .main
  | .reload _ => some .reload
  | .output => some .output
  | .signal | .quit | .arrive _ _ => none

structure State where
  worker : Threads.State
  stats : SharedCounters Thread Counter

inductive Act where
  | worker (a : Threads.Act)
  | count (t : Thread)

def Act.worker? : Act → Option Threads.Act
  | .worker a => some a
  | .count _ => none

/-- A thread goes on when it has made the additions of its last step.
Source: `stats.c` `bytes_stats_add`, `packets_stats_add` -/
def step (s : State) : Act → Option State
  | .worker a =>
    if (threadOf a).all fun t => (s.stats.pending t).isEmpty then
      (Threads.step s.worker a).map fun w =>
        { worker := w
          stats := (threadOf a).elim s.stats fun t =>
            s.stats.issue t (newAdds u s.worker.calls (w.calls.drop s.worker.calls.length)) }
    else none
  | .count t => (s.stats.advance Counter.span t).map fun stats => { s with stats := stats }

def initial (config : Config) (create : ℕ → Except String Unit) : State :=
  ⟨Threads.initial config create, .zero⟩

/-- A thread starts to add to a counter to which another thread is adding. -/
def State.overlaps (s : State) : Act → Bool
  | .worker _ => false
  | .count t => s.stats.overlaps t

variable {s : State}

theorem step_worker {s' : State} {a : Threads.Act} (hs : step u s (.worker a) = some s') :
    (∀ t, threadOf a = some t → s.stats.pending t = []) ∧
      ∃ w, Threads.step s.worker a = some w ∧ s' = ⟨w, (threadOf a).elim s.stats fun t =>
        s.stats.issue t (newAdds u s.worker.calls (w.calls.drop s.worker.calls.length))⟩ := by
  simp only [step] at hs
  split_ifs at hs with hidle
  obtain ⟨w, hw, rfl⟩ := Option.map_eq_some_iff.mp hs
  refine ⟨fun t ht => ?_, w, hw, rfl⟩
  rw [ht] at hidle
  exact isEmpty_iff.mp hidle

/-- A step adds calls, and none when it is of no thread that counts. -/
theorem step_calls {w w' : Threads.State} {a : Threads.Act} (hs : Threads.step w a = some w') :
    ∃ new, w'.calls = w.calls ++ new ∧ (threadOf a = none → new = []) := by
  have hsame (h : w'.calls = w.calls) :
      ∃ new, w'.calls = w.calls ++ new ∧ (threadOf a = none → new = []) :=
    ⟨[], h.trans (append_nil _).symm, fun _ => rfl⟩
  cases a with
  | main c =>
    rcases Threads.mainStep_cases hs with ⟨e, rest, -, hover⟩ | ⟨-, ctl, -, hcase⟩
    · unfold Threads.State.handOver at hover
      split_ifs at hover <;> cases hover
      · exact hsame rfl
      · exact hsame rfl
      · exact ⟨_, rfl, nofun⟩
    · rcases hcase with ⟨t, rest, -, rfl⟩ | ⟨-, rfl⟩ | ⟨-, -, rfl⟩
      all_goals exact ⟨_, rfl, nofun⟩
  | reload c =>
    obtain ⟨ctl, -, hcase⟩ := Threads.reloadStep_cases hs
    rcases hcase with ⟨-, rfl⟩ | ⟨-, rfl⟩ | ⟨-, -, rfl⟩
    all_goals exact ⟨_, rfl, nofun⟩
  | output =>
    cases Threads.outputStep_moves hs with
    | calls k m i c hpc hc => exact ⟨_, rfl, nofun⟩
    | _ => exact hsame rfl
  | signal | quit | arrive p reaches =>
    cases hs
    exact hsame rfl

/-- Nothing that a call added is lost: the shared counters and the additions still to be made are
together the additions of all calls. -/
def Tallied (s : State) : Prop :=
  s.stats.Consistent Counter.span (added (newAdds u [] s.worker.calls))

/-- **The step lemma**, as long as no two threads add to one counter. -/
theorem tallied_step (s : State) (a : Act) (s' : State) (h : Tallied u s)
    (halone : s.overlaps a = false) (hs : step u s a = some s') : Tallied u s' := by
  cases a with
  | count t =>
    obtain ⟨stats, hadvance, rfl⟩ := Option.map_eq_some_iff.mp hs
    exact h.advance halone hadvance
  | worker a =>
    obtain ⟨hidle, w, hw, rfl⟩ := step_worker u hs
    obtain ⟨new, hcalls, hquiet⟩ := step_calls hw
    have htotal : added (newAdds u [] w.calls) = fun c =>
        added (newAdds u [] s.worker.calls) c + added (newAdds u s.worker.calls new) c := by
      funext c
      rw [hcalls, newAdds_append, added_append]
      rfl
    rw [Tallied, htotal, hcalls, drop_left]
    cases hthread : threadOf a with
    | none =>
      rw [hquiet hthread]
      exact h
    | some t => exact h.issue (hidle t hthread) _

/-- **The shared counters** lose no addition when no two threads add to one at the same time. -/
theorem tallied_exec {config : Config} {create : ℕ → Except String Unit} {acts : List Act}
    (halone : Guarded (step u) (fun s a => s.overlaps a = false) (initial config create) acts)
    (hrun : exec (step u) (initial config create) acts = some s) : Tallied u s := by
  have hinitial : Tallied u (initial config create) :=
    SharedCounters.consistent_zero Counter.span_pos
  exact exec_invariant_of_guard (tallied_step u) hinitial halone hrun

/-- **Reading the shared counters**: each has the sum of what the outputs counted. -/
theorem Tallied.value_eq (h : Tallied u s) (hidle : ∀ t, s.stats.pending t = [])
    {outputs : List (CaptureTask × ℕ)} (hnodup : outputs.Nodup)
    (hindex : ∀ k ∈ outputs, k.2 < numOutputs k.1)
    (hcalls : ∀ call ∈ s.worker.calls, call.outputs ⊆ outputs) {c : Counter}
    {f : CaptureTask × ℕ → ℕ}
    (hf : ∀ k ∈ outputs, (outputAt u s.worker.calls k).stats.value c = f k % c.span) :
    s.stats.value c = (outputs.map f).sum % c.span := by
  rw [SharedCounters.Consistent.value_eq h hidle c, added_newAdds u hnodup hindex hcalls c]
  refine sum_modEq fun k hk => ?_
  refine (value_outputAt u s.worker.calls k c).symm.trans ?_
  rw [hf k hk]
  exact Nat.mod_modEq _ _

/-- The steps of the worker in a run are a run of the worker. -/
theorem exec_worker {s' : State} {acts : List Act} (h : exec (step u) s acts = some s') :
    exec Threads.step s.worker (acts.filterMap Act.worker?) = some s'.worker := by
  induction acts generalizing s with
  | nil =>
    cases h
    rfl
  | cons a acts ih =>
    obtain ⟨s₁, hs, hrest⟩ := (exec_cons_eq_some _).mp h
    cases a with
    | count t =>
      obtain ⟨stats, -, rfl⟩ := Option.map_eq_some_iff.mp hs
      exact ih (s := ⟨s.worker, stats⟩) hrest
    | worker a =>
      obtain ⟨-, w, hw, rfl⟩ := step_worker u hs
      exact (exec_cons_eq_some _).mpr ⟨w, hw, ih hrest⟩

end Counting

end CloudProbe.Worker
