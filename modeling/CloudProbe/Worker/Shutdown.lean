import CloudProbe.Worker.Counting
import CloudProbe.Worker.Drain
import CloudProbe.Worker.ReloadExit

/-!
# The end of the worker

`lifeOf` is the life of an output: the calls it gets, with the call that destroys it. In the
pipeline no message belongs to a destroyed task as long as no wait for the drain is cut short; in
run to completion there are no messages (`Sound`). So only outputs of tasks that were created are
called, and none after it was destroyed (`Lives`), over the counters that all outputs share.
-/

namespace CloudProbe.Worker

open CloudProbe.Lib List

/-- The call hands over exactly the captured bytes. -/
def OutputCall.Formed (c : OutputCall) : Prop := ∃ call : Call, call.toOutputCall = c

/-- The message has exactly the captured bytes. -/
def RingMsg.Formed {τ : Type*} : RingMsg τ → Prop
  | .packet _ _ hdr data => data.length = hdr.caplen.toNat
  | .heartbeat _ _ => True

variable {τ : Type*}

theorem CaptureEvent.toMsg_formed (e : CaptureEvent τ) : e.toMsg.Formed := by
  obtain ⟨user, captured⟩ := e
  cases captured with
  | packet p direct =>
    show (p.data.take p.hdr.caplen.toNat).length = p.hdr.caplen.toNat
    rw [length_take, p.data_length, Nat.min_self]
  | heartbeat now => trivial

theorem outputSendPktMsg_formed {numOutputs : τ → ℕ} {m : RingMsg τ} (hm : m.Formed) {c : Sent τ}
    (hc : c ∈ outputSendPktMsg numOutputs m) :
    c.user = m.user ∧ c.call.Formed ∧ c.output < numOutputs c.user := by
  cases m with
  | packet user direction hdr data =>
    obtain ⟨i, hi, rfl⟩ := mem_map.mp hc
    exact ⟨rfl, ⟨.sendPacket ⟨⟨hdr, data, hm⟩, direction⟩, rfl⟩, mem_range.mp hi⟩
  | heartbeat user ts =>
    obtain ⟨i, hi, rfl⟩ := mem_map.mp hc
    exact ⟨rfl, ⟨.heartbeat ts, rfl⟩, mem_range.mp hi⟩

theorem rtcEvent_formed {numOutputs : τ → ℕ} {e : CaptureEvent τ} {c : Sent τ}
    (hc : c ∈ rtcEvent numOutputs e) :
    c.user = e.user ∧ c.call.Formed ∧ c.output < numOutputs c.user := by
  obtain ⟨user, captured⟩ := e
  cases captured with
  | packet p direct =>
    have hsent : c ∈ callOutputs user (numOutputs user) (.sendPacket p.hdr p.data direct) := by
      simp only [rtcEvent, rtcCaptureTaskPacketCb] at hc
      split_ifs at hc
      · cases hc
      · exact hc
    obtain ⟨i, hi, rfl⟩ := mem_map.mp hsent
    exact ⟨rfl, ⟨.sendPacket ⟨p, direct⟩, rfl⟩, mem_range.mp hi⟩
  | heartbeat now =>
    obtain ⟨i, hi, rfl⟩ := mem_map.mp hc
    exact ⟨rfl, ⟨.heartbeat now, rfl⟩, mem_range.mp hi⟩

namespace Threads

open Reload (Ordered createdIn destroyedIn)

variable {s s' : State}

/-! ### The calls of the outputs -/

def Call.destroyed? : Call → Option CaptureTask
  | .sent _ => none
  | .destroyed t => some t

/-- The outputs of a task are destroyed with it and get no call after that; only the outputs of
tasks that were created get any. -/
structure Lives (s : State) : Prop where
  destroyed : s.calls.filterMap Call.destroyed? = destroyedIn s.ctl.trace
  ordered : s.calls.Pairwise fun a b => ∀ c, b = .sent c → a ≠ .destroyed c.user
  formed : ∀ c, .sent c ∈ s.calls → c.call.Formed ∧ c.output < numOutputs c.user
  created : ∀ c, .sent c ∈ s.calls → c.user ∈ createdIn s.ctl.trace
  messages : ∀ m ∈ s.messages, m.Formed ∧ m.user ∈ createdIn s.ctl.trace

theorem Lives.congr (h : Lives s) (hcalls : s'.calls = s.calls)
    (htrace : s'.ctl.trace = s.ctl.trace)
    (hmessages : ∀ m ∈ s'.messages,
      m ∈ s.messages ∨ m.Formed ∧ m.user ∈ createdIn s.ctl.trace) :
    Lives s' where
  destroyed := by
    rw [hcalls, htrace]
    exact h.destroyed
  ordered := hcalls ▸ h.ordered
  formed := hcalls ▸ h.formed
  created := by
    rw [hcalls, htrace]
    exact h.created
  messages := by
    intro m hm
    rw [htrace]
    exact (hmessages m hm).elim (h.messages m) id

variable {t : CaptureTask} {a : Act} {config : Config} {create : ℕ → Except String Unit}
  {acts : List Act}

theorem Lives.mem_calls (h : Lives s) :
    .destroyed t ∈ s.calls ↔ t ∈ destroyedIn s.ctl.trace := by
  rw [← h.destroyed, mem_filterMap]
  constructor
  · intro hmem
    exact ⟨.destroyed t, hmem, rfl⟩
  · rintro ⟨call, hmem, ht⟩
    cases call with
    | sent c => cases ht
    | destroyed u =>
      cases ht
      exact hmem

/-- Calls to outputs of a live task keep the lives in order. -/
theorem Lives.send (h : Lives s) {cs : List (Sent CaptureTask)} {user : CaptureTask}
    (hcs : ∀ c ∈ cs, c.user = user ∧ c.call.Formed ∧ c.output < numOutputs c.user)
    (hcreated : user ∈ createdIn s.ctl.trace) (huser : user ∉ destroyedIn s.ctl.trace)
    (hcalls : s'.calls = s.calls ++ cs.map .sent) (hctl : s'.ctl = s.ctl)
    (hmessages : ∀ m ∈ s'.messages, m ∈ s.messages) : Lives s' where
  destroyed := by
    have hnone : (cs.map Call.sent).filterMap Call.destroyed? = [] := by
      rw [filterMap_map]
      exact filterMap_eq_nil_iff.mpr fun _ _ => rfl
    rw [hcalls, hctl, filterMap_append, hnone, append_nil]
    exact h.destroyed
  ordered := by
    rw [hcalls]
    refine pairwise_append.mpr ⟨h.ordered, ?_, ?_⟩
    · apply pairwise_of_forall_mem_list
      intro a ha b _ c _
      obtain ⟨c', -, rfl⟩ := mem_map.mp ha
      simp
    · rintro a ha b hb c rfl rfl
      obtain ⟨c', hc', heq⟩ := mem_map.mp hb
      cases heq
      rw [(hcs c hc').1] at ha
      exact huser (h.mem_calls.mp ha)
  formed := by
    intro c hc
    rw [hcalls] at hc
    rcases mem_append.mp hc with hold | hnew
    · exact h.formed c hold
    · obtain ⟨c', hc', heq⟩ := mem_map.mp hnew
      cases heq
      exact (hcs c hc').2
  created := by
    intro c hc
    rw [hctl]
    rw [hcalls] at hc
    rcases mem_append.mp hc with hold | hnew
    · exact h.created c hold
    · obtain ⟨c', hc', heq⟩ := mem_map.mp hnew
      cases heq
      rw [(hcs c hc').1]
      exact hcreated
  messages := by
    rw [hctl]
    exact fun m hm => h.messages m (hmessages m hm)

/-- The events of the protocol keep the lives in order. -/
theorem Lives.follow (h : Lives s) {ctl : Reload.State} {events : List Reload.Event}
    (htrace : ctl.trace = s.ctl.trace ++ events) : Lives (s.follow ctl) := by
  have hmore {t : CaptureTask} (ht : t ∈ createdIn s.ctl.trace) : t ∈ createdIn ctl.trace := by
    rw [htrace, Reload.createdIn_append]
    exact mem_append_left _ ht
  have hsent {c : Sent CaptureTask} (hc : .sent c ∈ (s.follow ctl).calls) : .sent c ∈ s.calls := by
    rcases mem_append.mp hc with hold | hnew
    · exact hold
    · obtain ⟨t, -, heq⟩ := mem_map.mp hnew
      cases heq
  refine ⟨?_, ?_, fun c hc => h.formed c (hsent hc), fun c hc => hmore (h.created c (hsent hc)),
    fun m hm => ⟨(h.messages m hm).1, hmore (h.messages m hm).2⟩⟩
  · have hall : ((destroyedIn events).map Call.destroyed).filterMap Call.destroyed? =
        destroyedIn events := by
      rw [filterMap_map]
      exact filterMap_some
    simp only [State.follow, htrace, drop_left, filterMap_append, hall, h.destroyed,
      Reload.destroyedIn_append]
  · refine pairwise_append.mpr ⟨h.ordered, ?_, ?_⟩
    · apply pairwise_of_forall_mem_list
      rintro a - b hb c rfl
      obtain ⟨t, -, heq⟩ := mem_map.mp hb
      cases heq
    · rintro a - b hb c rfl
      obtain ⟨t, -, heq⟩ := mem_map.mp hb
      cases heq

/-- What the worker is about to call was created and is not destroyed. -/
structure Unharmed (s : State) : Prop where
  messages : ∀ m ∈ s.messages, m.user ∉ destroyedIn s.ctl.trace
  handing : ∀ e ∈ s.handing, e.user ∈ createdIn s.ctl.trace ∧ e.user ∉ destroyedIn s.ctl.trace

/-- **The step lemma** for the output thread. -/
theorem lives_outputStep (h : Lives s) (hunharmed : Unharmed s) (hs : outputStep s = some s') :
    Lives s' := by
  have hsub := (outputStep_moves hs).messages
  cases outputStep_moves hs with
  | calls k m i c hpc hc =>
    have hm : m ∈ s.messages := by
      rw [State.messages, hpc]
      exact mem_cons_self
    have hformed : ∀ c' ∈ [c],
        c'.user = m.user ∧ c'.call.Formed ∧ c'.output < numOutputs c'.user := by
      intro c' hc'
      rw [mem_singleton.mp hc']
      exact outputSendPktMsg_formed (h.messages m hm).1 (mem_of_getElem? hc)
    exact h.send hformed (h.messages m hm).2 (hunharmed.messages m hm) rfl rfl hsub
  | _ => exact h.congr rfl rfl fun m hm => .inl (hsub m hm)

/-- **Every step keeps the lives of the outputs in order**, if it calls nothing that is destroyed.
-/
theorem lives_step (hord : Ordered s.ctl) (h : Lives s) (hunharmed : Unharmed s)
    (hs : step s a = some s') : Lives s' := by
  have hfollow {ctl : Reload.State} {b : Reload.Act} (hctl : Reload.step s.ctl b = some ctl) :
      Lives (s.follow ctl) := by
    rcases Reload.step_events hord hctl with ⟨c, t, rest, -, -, htrace⟩ | ⟨events, htrace, -⟩
    all_goals exact h.follow htrace
  cases a with
  | main c =>
    rcases mainStep_cases hs with ⟨e, rest, hhand, hover⟩ | ⟨-, ctl, hctl, hcase⟩
    · have hmem : e ∈ s.handing := by
        rw [hhand]
        exact mem_cons_self
      unfold State.handOver at hover
      split_ifs at hover <;> cases hover
      · exact h.congr rfl rfl fun m hm => .inl hm
      · refine h.congr rfl rfl fun m hm => ?_
        rw [State.messages, ← append_assoc] at hm
        rcases mem_append.mp hm with hold | hnew
        · exact .inl hold
        · rw [mem_singleton.mp hnew]
          exact .inr ⟨e.toMsg_formed, e.toMsg_user ▸ (hunharmed.handing e hmem).1⟩
      · exact h.send (fun c hc => rtcEvent_formed hc) (hunharmed.handing e hmem).1
          (hunharmed.handing e hmem).2 rfl rfl fun m hm => hm
    · have hlives := hfollow (b := .main _) hctl
      rcases hcase with ⟨t, rest, -, rfl⟩ | ⟨-, rfl⟩ | ⟨-, -, rfl⟩
      · exact hlives.congr rfl rfl fun m hm => .inl hm
      · exact hlives.congr rfl rfl fun m hm => .inl hm
      · exact hlives
  | reload c =>
    obtain ⟨ctl, hctl, hcase⟩ := reloadStep_cases hs
    have hlives := hfollow (b := .reload _) hctl
    rcases hcase with ⟨-, rfl⟩ | ⟨-, rfl⟩ | ⟨-, -, rfl⟩
    · exact hlives.congr rfl rfl fun m hm => .inl hm
    · exact hlives.congr rfl rfl fun m hm => .inl hm
    · exact hlives
  | output => exact lives_outputStep h hunharmed hs
  | signal | quit | arrive p reaches =>
    cases hs
    exact h.congr rfl rfl fun m hm => .inl hm

/-! ### Both execution models -/

/-- What is true of the worker in run to completion: there is no output thread, and no message. -/
structure Direct (s : State) : Prop where
  ordered : Ordered s.ctl
  rtc : ¬s.pipeline
  handing : Handing s
  ring : s.ring = []
  out : s.out = .exited

/-- **The step lemma** in run to completion. -/
theorem direct_step (h : Direct s) (hs : step s a = some s') : Direct s' := by
  have hidle : s'.ring = s.ring ∧ s'.out = s.out := by
    cases a with
    | main c =>
      rcases mainStep_cases hs with ⟨e, rest, -, hover⟩ | ⟨-, ctl, -, hcase⟩
      · rw [State.handOver, if_neg h.rtc] at hover
        cases hover
        exact ⟨rfl, rfl⟩
      · rcases hcase with ⟨t, rest, -, rfl⟩ | ⟨-, rfl⟩ | ⟨-, -, rfl⟩
        all_goals exact ⟨rfl, rfl⟩
    | reload c =>
      obtain ⟨ctl, -, hcase⟩ := reloadStep_cases hs
      rcases hcase with ⟨-, rfl⟩ | ⟨-, rfl⟩ | ⟨-, -, rfl⟩
      all_goals exact ⟨rfl, rfl⟩
    | output =>
      rw [step, outputStep, h.out] at hs
      cases hs
    | signal | quit | arrive p reaches =>
      cases hs
      exact ⟨rfl, rfl⟩
  exact ⟨step_ordered h.ordered hs, fun hmodel => h.rtc ((step_pipeline h.ordered hs).mp hmodel),
    handing_step h.ordered h.handing hs, hidle.1.trans h.ring, hidle.2.trans h.out⟩

inductive Sound (s : State) : Prop where
  | pipeline (h : Safe s)
  | rtc (h : Direct s)

theorem Sound.ordered (h : Sound s) : Ordered s.ctl := by
  cases h with
  | pipeline h | rtc h => exact h.ordered

theorem sound_step (s : State) (a : Act) (s' : State) (h : Sound s)
    (hguard : s.cutsWaitShort a = false) (hs : step s a = some s') : Sound s' := by
  cases h with
  | pipeline h => exact .pipeline (safe_step s a s' h hguard hs)
  | rtc h => exact .rtc (direct_step h hs)

theorem sound_initial (config : Config) (create : ℕ → Except String Unit) :
    Sound (initial config create) := by
  cases hmodel : config.executionModel with
  | pipeline => exact .pipeline (safe_initial hmodel create)
  | rtc =>
    refine .rtc ⟨Reload.ordered_initial config create, ?_, .nil rfl, rfl, ?_⟩
    · simp [State.pipeline, initial, Reload.initial, hmodel]
    · simp [initial, hmodel]

theorem Handing.not_destroyed (h : Handing s) (hord : Ordered s.ctl) {e : CaptureEvent CaptureTask}
    (he : e ∈ s.handing) :
    e.user ∈ createdIn s.ctl.trace ∧ e.user ∉ destroyedIn s.ctl.trace := by
  obtain ⟨rest, hmain⟩ := h.polling (ne_nil_of_mem he)
  obtain ⟨⟨st, hat⟩, hist⟩ := hord.inv (by rw [hmain]; rfl)
  obtain ⟨w, hw, heq⟩ := mem_map.mp (h.live e he)
  rw [← heq]
  exact ⟨Reload.live_created hat hist hw, (Reload.destroyed_once hat hist).2 w hw⟩

theorem Sound.unharmed (h : Sound s) : Unharmed s := by
  cases h with
  | pipeline h =>
    refine ⟨fun m hm hgone => h.not_destroyed hgone hm rfl, fun e he => ?_⟩
    exact h.handing.not_destroyed h.ordered he
  | rtc h =>
    refine ⟨fun m hm => ?_, fun e he => h.handing.not_destroyed h.ordered he⟩
    rw [State.messages, h.out, h.ring] at hm
    cases hm

/-- **The run lemma** for the lives of the outputs. -/
theorem lives_exec
    (hguard : Guarded step (fun s a => s.cutsWaitShort a = false) (initial config create) acts)
    (hrun : exec step (initial config create) acts = some s) : Lives s := by
  have hinitial : Lives (initial config create) := by
    refine ⟨?_, List.Pairwise.nil, fun c hc => absurd hc not_mem_nil,
      fun c hc => absurd hc not_mem_nil, ?_⟩
    · exact (Reload.createdIn_map_created _).2.1.symm
    · have hnone : (initial config create).messages = [] := by
        rw [State.messages, initial]
        simp only [append_nil]
        split_ifs <;> rfl
      rw [hnone]
      exact fun m hm => absurd hm not_mem_nil
  refine (exec_invariant_of_guard (P := fun s => Sound s ∧ Lives s) ?_
    ⟨sound_initial config create, hinitial⟩ hguard hrun).2
  rintro s a s' ⟨hsound, hlives⟩ hcut hs
  exact ⟨sound_step s a s' hsound hcut hs, lives_step hsound.ordered hlives hsound.unharmed hs⟩

/-! ### The life of an output -/

/-- The life of an output of a live task: its calls. -/
theorem lifeOf_eq_map (i : ℕ) {calls : List Call} (hformed : ∀ c, .sent c ∈ calls → c.call.Formed)
    (halive : .destroyed t ∉ calls) :
    ∃ cs : List Worker.Call, lifeOf t i calls = cs.map fun c => some c.toOutputCall := by
  induction calls with
  | nil => exact ⟨[], rfl⟩
  | cons call calls ih =>
    obtain ⟨cs, hcs⟩ := ih (fun c hc => hformed c (.tail _ hc)) fun hmem => halive (.tail _ hmem)
    cases call with
    | sent c =>
      obtain ⟨first, hfirst⟩ := hformed c (.head _)
      by_cases hto : c.user = t ∧ c.output = i
      · refine ⟨first :: cs, ?_⟩
        rw [lifeOf, filterMap_cons, map_cons, hfirst, ← hcs]
        simp only [hto, and_self, if_true]
        rfl
      · refine ⟨cs, ?_⟩
        rw [lifeOf, filterMap_cons, ← hcs]
        simp only [hto, if_false]
        rfl
    | destroyed u =>
      have hother : u ≠ t := by
        rintro rfl
        exact halive (.head _)
      refine ⟨cs, ?_⟩
      rw [lifeOf, filterMap_cons, ← hcs]
      simp only [hother, if_false]
      rfl

/-- The life of an output of a destroyed task: its calls, and then its destroy. -/
theorem Lives.lifeOf_destroyed (h : Lives s) (hnodup : (destroyedIn s.ctl.trace).Nodup)
    (ht : t ∈ destroyedIn s.ctl.trace) (i : ℕ) :
    ∃ cs : List Worker.Call,
      lifeOf t i s.calls = (cs.map fun c => some c.toOutputCall) ++ [none] := by
  obtain ⟨earlier, later, hcalls⟩ := append_of_mem (h.mem_calls.mpr ht)
  rw [← h.destroyed, hcalls, filterMap_append, filterMap_cons] at hnodup
  simp only [Call.destroyed?] at hnodup
  have hgone {l : List Call} (hmem : .destroyed t ∈ l) : t ∈ l.filterMap Call.destroyed? :=
    mem_filterMap.mpr ⟨_, hmem, rfl⟩
  have hparts := nodup_append.mp hnodup
  have hearlier : .destroyed t ∉ earlier :=
    fun hmem => hparts.2.2 t (hgone hmem) t mem_cons_self rfl
  have hlater : .destroyed t ∉ later := fun hmem => (nodup_cons.mp hparts.2.1).1 (hgone hmem)
  have hordered := h.ordered
  rw [hcalls] at hordered
  have hsilent := (pairwise_cons.mp (pairwise_append.mp hordered).2.1).1
  obtain ⟨cs, hcs⟩ := lifeOf_eq_map (t := t) i
    (fun c hc => (h.formed c (by rw [hcalls]; exact mem_append_left _ hc)).1) hearlier
  have hrest : lifeOf t i later = [] := by
    apply filterMap_eq_nil_iff.mpr
    intro call hmem
    cases call with
    | sent c =>
      have hne : c.user ≠ t := by
        rintro rfl
        exact hsilent _ hmem c rfl rfl
      simp [hne]
    | destroyed u =>
      have hne : u ≠ t := by
        rintro rfl
        exact hlater hmem
      simp [hne]
  refine ⟨cs, ?_⟩
  rw [hcalls, ← hcs, lifeOf, filterMap_append, filterMap_cons]
  simp only [if_true]
  rw [lifeOf] at hrest
  rw [hrest]
  rfl

/-! ### The result -/

/-- When main joins the reload thread, that thread and its unread report hold no capture task that
is not in the task list. -/
def State.joinsSettled (s : State) : Act → Bool
  | .main _ =>
    match s.ctl.main, s.ctl.reload with
    | .joinReload, .exited => decide s.ctl.toCore.Settled
    | _, _ => true
  | _ => true

/-- The outputs of all tasks that were created, by task and position. -/
def State.outputs (s : State) : List (CaptureTask × ℕ) :=
  (createdIn s.ctl.trace).flatMap fun t => (List.range (numOutputs t)).map (t, ·)

/-- What is true of a run that is over, as far as the capture tasks go. -/
structure Finished (u : Counting.Setup) (s : Counting.State) : Prop where
  /-- nothing was created and not destroyed -/
  destroyed : (createdIn s.worker.ctl.trace).Perm (destroyedIn s.worker.ctl.trace)
  once : (destroyedIn s.worker.ctl.trace).Nodup
  /-- The life of each output ends with its destruction: no zmq batch is left, and its ledger has
  one bucket for every packet handed over. The shared counters have the packets and the bytes of
  all ledgers. -/
  counted : ∃ (cs : CaptureTask × ℕ → List Worker.Call)
      (ledger : CaptureTask × ℕ → Ledger Handed Bucket),
    (∀ k ∈ s.worker.outputs,
      lifeOf k.1 k.2 s.worker.calls = ((cs k).map fun c => some c.toOutputCall) ++ [none] ∧
      Conserved (u.env k) (u.opts k) .zero (cs k) true (ledger k) ∧
      ∀ opts, u.opts k = .zmq opts →
        (zmqAfter (u.env k) (zmqOutputNew (u.env k) opts .zero) (cs k) true).pktsNum = 0) ∧
    ∀ b,
      s.stats.value (.packets b) = (s.worker.outputs.map fun k =>
        (ledger k).total (fun _ => 1) (some b)).sum % CarryCounter.span petaInPackets ∧
      s.stats.value (.bytes b) = (s.worker.outputs.map fun k =>
        (ledger k).total (u.opts k).countedLen (some b)).sum % CarryCounter.span eibInBytes

theorem pktsNum_zmqAfter (env : Env) (opts : ZmqOptions) (st : OutputStats)
    (calls : List Worker.Call) :
    (zmqAfter env (zmqOutputNew env opts st) calls true).pktsNum = 0 := by
  obtain ⟨B, hadv, hnil⟩ := zmqAfter_advance env opts st calls true
  have hpending := hadv.sim.pending
  rw [hnil rfl] at hpending
  exact hpending.of_nil.1

theorem mem_outputs {k : CaptureTask × ℕ} :
    k ∈ s.outputs ↔ k.1 ∈ createdIn s.ctl.trace ∧ k.2 < numOutputs k.1 := by
  obtain ⟨t, i⟩ := k
  simp only [State.outputs, mem_flatMap, mem_map, mem_range, Prod.mk.injEq]
  constructor
  · rintro ⟨t, ht, i, hi, rfl, rfl⟩
    exact ⟨ht, hi⟩
  · rintro ⟨ht, hi⟩
    exact ⟨t, ht, i, hi, rfl, rfl⟩

theorem nodup_outputs (h : (createdIn s.ctl.trace).Nodup) : s.outputs.Nodup := by
  refine nodup_flatMap.mpr ⟨fun t _ => ?_, h.imp fun hne k hk hk' => ?_⟩
  · exact Call.nodup_outputs (.destroyed t)
  · obtain ⟨i, -, rfl⟩ := mem_map.mp hk
    obtain ⟨j, -, heq⟩ := mem_map.mp hk'
    exact hne (Prod.ext_iff.mp heq).1.symm

/-- Calls are made only to the outputs of tasks that were created. -/
theorem Lives.outputs_subset (h : Lives s)
    (hperm : (createdIn s.ctl.trace).Perm (destroyedIn s.ctl.trace)) (call : Call)
    (hmem : call ∈ s.calls) : call.outputs ⊆ s.outputs := by
  intro k hk
  cases call with
  | sent c =>
    rw [mem_singleton.mp hk]
    exact mem_outputs.mpr ⟨h.created c hmem, (h.formed c hmem).2⟩
  | destroyed t =>
    obtain ⟨i, hi, rfl⟩ := mem_map.mp hk
    exact mem_outputs.mpr ⟨hperm.mem_iff.mpr (h.mem_calls.mp hmem), mem_range.mp hi⟩

theorem outputAt_of_life {u : Counting.Setup} {calls : List Call} {k : CaptureTask × ℕ}
    {cs : List Worker.Call}
    (h : lifeOf k.1 k.2 calls = (cs.map fun c => some c.toOutputCall) ++ [none]) :
    Counting.outputAt u calls k =
      (Output.new (u.env k) .zero (u.opts k)).after (u.env k) cs true := by
  rw [Counting.outputAt, h, foldl_append, foldl_map]
  simp only [Output.live, Call.toCall_toOutputCall, Option.elim_some]
  rfl

/-- **The shared counters have every packet**, when every task was destroyed. -/
theorem finished_of_destroyed {u : Counting.Setup} {s : Counting.State} (hlives : Lives s.worker)
    (htallied : Counting.Tallied u s) (hidle : ∀ t, s.stats.pending t = [])
    (hperm : (createdIn s.worker.ctl.trace).Perm (destroyedIn s.worker.ctl.trace))
    (honce : (destroyedIn s.worker.ctl.trace).Nodup) : Finished u s := by
  have hlife : ∀ k ∈ s.worker.outputs, ∃ cs : List Worker.Call,
      lifeOf k.1 k.2 s.worker.calls = (cs.map fun c => some c.toOutputCall) ++ [none] :=
    fun k hk => hlives.lifeOf_destroyed honce (hperm.subset (mem_outputs.mp hk).1) k.2
  choose! cs hcs using hlife
  choose ledger hledger using fun k => exists_conserved (u.env k) (u.opts k) .zero (cs k) true
  have hvalue {c : Counter} {f : CaptureTask × ℕ → ℕ}
      (hf : ∀ k, ((Output.new (u.env k) .zero (u.opts k)).after (u.env k) (cs k) true).stats.value c
        = (OutputStats.zero.value c + f k) % c.span) :
      s.stats.value c = (s.worker.outputs.map f).sum % c.span := by
    refine htallied.value_eq u hidle (nodup_outputs (hperm.nodup_iff.mpr honce))
      (fun k hk => (mem_outputs.mp hk).2) (hlives.outputs_subset hperm) fun k hk => ?_
    rw [outputAt_of_life (hcs k hk), hf, OutputStats.value_zero, Nat.zero_add]
  refine ⟨hperm, honce, cs, ledger, fun k hk => ⟨hcs k hk, hledger k, fun opts _ => ?_⟩,
    fun b => ⟨?_, ?_⟩⟩
  · exact pktsNum_zmqAfter _ _ _ _
  · exact hvalue fun k => (hledger k).packets b
  · exact hvalue fun k => (hledger k).bytes b

/-- Main joins the reload thread once, when it has returned. -/
theorem step_joined (hs : step s a = some s') (hjoined : s'.ctl.main.joined = true) :
    s.ctl.main.joined = true ∨ (∃ c, a = .main c) ∧ s.ctl.main = .joinReload ∧
      s.ctl.reload = .exited := by
  cases a with
  | main c =>
    rcases mainStep_cases hs with ⟨e, rest, -, hover⟩ | ⟨-, ctl, hctl, hcase⟩
    · rw [(handOver_same hover).1] at hjoined
      exact .inl hjoined
    · have hnext : ctl.main.joined = true := by
        rcases hcase with ⟨t, rest, -, rfl⟩ | ⟨-, rfl⟩ | ⟨-, -, rfl⟩
        all_goals exact hjoined
      rcases Reload.mainStep_end hctl hnext with ⟨hpc, hexited, -⟩ | ⟨hpc, -⟩ | ⟨hpc, -⟩ |
        ⟨hpc, -⟩ | ⟨t, rest, hpc, -⟩
      · exact .inr ⟨⟨c, rfl⟩, hpc, hexited⟩
      all_goals exact .inl (by rw [hpc]; rfl)
  | reload c =>
    obtain ⟨ctl, hctl, hcase⟩ := reloadStep_cases hs
    have hsame := (Reload.reloadStep_mainSame hctl).main
    refine .inl ?_
    rw [← hsame]
    rcases hcase with ⟨-, rfl⟩ | ⟨-, rfl⟩ | ⟨-, -, rfl⟩
    all_goals exact hjoined
  | output =>
    rw [(outputStep_same hs).1] at hjoined
    exact .inl hjoined
  | signal | quit | arrive p reaches =>
    cases hs
    exact .inl hjoined

theorem step_balanced (hs : step s a = some s') (h : s.ctl.Released) :
    s'.ctl.Released ∧ (s'.ctl.Balanced ↔ s.ctl.Balanced) := by
  rcases step_ctl s a s' hs with heq | ⟨b, hb⟩
  · rw [heq]
    exact ⟨h, Iff.rfl⟩
  · exact Reload.step_released hb h

theorem balanced_iff_of_join (hord : Ordered s.ctl) (hmain : s.ctl.main = .joinReload)
    (hexited : s.ctl.reload = .exited) : s.ctl.Balanced ↔ s.ctl.toCore.Settled := by
  obtain ⟨⟨st, hat⟩, hist⟩ := hord.inv (by rw [hmain]; rfl)
  exact Reload.balanced_iff_settled hat hist (by rw [hmain]; rfl) (by rw [hexited]; rfl)

/-- A settled join leaves balanced books. -/
theorem balanced_of_joinsSettled
    (hguard : Guarded step (fun s a => s.joinsSettled a = true) (initial config create) acts)
    (hrun : exec step (initial config create) acts = some s) (hjoined : s.ctl.main.joined = true) :
    s.ctl.Balanced := by
  refine (exec_invariant_of_guard
    (P := fun s => Ordered s.ctl ∧ (s.ctl.main.joined = true → s.ctl.Balanced)) ?_
    ⟨Reload.ordered_initial config create, nofun⟩ hguard hrun).2 hjoined
  rintro s a s' ⟨hord, hbalanced⟩ hsettled hs
  refine ⟨step_ordered hord hs, fun hnext => ?_⟩
  rcases step_joined hs hnext with hbefore | ⟨⟨c, rfl⟩, hmain, hexited⟩
  · exact (step_balanced hs ⟨hord.joined hbefore, .inr hbefore⟩).2.mpr (hbalanced hbefore)
  · apply (step_balanced hs ⟨hexited, .inl hmain⟩).2.mpr
    apply (balanced_iff_of_join hord hmain hexited).mpr
    simpa [State.joinsSettled, hmain, hexited] using hsettled

/-- Balanced books had a settled join. -/
theorem joinsSettled_of_balanced (hrun : exec step (initial config create) acts = some s)
    (hbalanced : s.ctl.Balanced) :
    Guarded step (fun s a => s.joinsSettled a = true) (initial config create) acts := by
  refine (guarded_of_exec (I := fun s => Ordered s.ctl)
    (P := fun s => s.ctl.Released → s.ctl.Balanced) (fun s a s' hord hs => step_ordered hord hs) ?_
    (Reload.ordered_initial config create) hrun fun _ => hbalanced).1
  intro s a s' hord hs hnext
  have hback (hreleased : s.ctl.Released) : s.ctl.Balanced := by
    obtain ⟨hreleased', hiff⟩ := step_balanced hs hreleased
    exact hiff.mp (hnext hreleased')
  refine ⟨?_, hback⟩
  unfold State.joinsSettled
  split
  · split
    · rename_i hmain hexited
      apply decide_eq_true
      exact (balanced_iff_of_join hord hmain hexited).mp (hback ⟨hexited, .inl hmain⟩)
    · rfl
  · rfl

/-- **Every capture task is destroyed once, exactly when nothing is held at the join**, in every run
that cuts no wait short and in which no two threads add to one counter at the same time. Source:
`task.c` `task_manager_destroy`, `reload_ctx_cleanup_on_exit`; `main.c` `main` -/
theorem tasks_destroyed_once_iff (u : Counting.Setup) (config : Config)
    (create : ℕ → Except String Unit) (acts : List Counting.Act) (s : Counting.State)
    (hguard : Guarded step (fun s a => s.cutsWaitShort a = false) (initial config create)
      (acts.filterMap Counting.Act.worker?))
    (halone : Guarded (Counting.step u) (fun s a => s.overlaps a = false)
      (Counting.initial config create) acts)
    (hrun : exec (Counting.step u) (Counting.initial config create) acts = some s)
    (hdone : s.worker.ctl.main = .done) (hidle : ∀ t, s.stats.pending t = []) :
    Finished u s ↔
      Guarded step (fun s a => s.joinsSettled a = true) (initial config create)
        (acts.filterMap Counting.Act.worker?) := by
  have hworker := Counting.exec_worker u hrun
  obtain ⟨bs, hprotocol⟩ := exec_ctl hworker
  have hempty : s.worker.ctl.mgr.tasks = [] := Reload.tasks_of_done hprotocol hdone
  have hbalanced : s.worker.ctl.Balanced ↔
      (createdIn s.worker.ctl.trace).Perm (destroyedIn s.worker.ctl.trace) := by
    rw [Reload.State.Balanced, hempty, show captureTasks [] = [] from rfl, append_nil]
  constructor
  · intro hfinished
    exact joinsSettled_of_balanced hworker (hbalanced.mpr hfinished.destroyed)
  · intro hsettled
    have hperm := hbalanced.mp (balanced_of_joinsSettled hsettled hworker (by rw [hdone]; rfl))
    exact finished_of_destroyed (lives_exec hguard hworker) (Counting.tallied_exec u halone hrun)
      hidle hperm (hperm.nodup_iff.mp (Reload.nodup_created hprotocol))

/-- One task with one output, run to completion. -/
def taskWith (fingerprint : String) (output : OutputConfig) : Config where
  tasks := [⟨some fingerprint, .libpcap "" false, [output]⟩]
  unique := nodup_singleton _
  executionModel := .rtc
  bufferSizeMb := 0
  bufferSize_lt := zero_bufferSize_lt

/-- Everything is sent; the first task has a zmq output, the others a file output. -/
def zmqThenFile : Counting.Setup where
  env _ := ⟨fun _ => true, fun _ => ⟨1, 0⟩, fun _ => .error, fun _ => 1, fun _ => true, false⟩
  opts k := if k.1.id = 0 then .zmq ⟨0, List.replicate 16 0, rfl, 0, 0, 0⟩ else .file ⟨0, 0⟩

def shortFrame : Packet := ⟨⟨⟨1, 0⟩, 14, 14⟩, List.replicate 14 0, by decide⟩

/-- A frame arrives at the first task, is polled and handed to its output; a reload to another task
goes on until main has taken the survivors and asked for the build. -/
def untilBuildRequested : List Act :=
  let main : Act := .main ⟨1, none, true⟩
  let reload : Act :=
    .reload ⟨some (taskWith "b" .file), true, fun _ => true, ⟨.ok (), true⟩, false⟩
  [.arrive shortFrame fun _ => some .incoming, .signal] ++ List.replicate 8 main ++
    List.replicate 6 reload ++ List.replicate 5 main

/-- Main is told to quit and stops the reload thread, which returns; main goes on to its end, with
`n` tasks to destroy. -/
def untilDone (n : ℕ) : List Act :=
  let main : Act := .main ⟨0, none, false⟩
  let reload : Act := .reload ⟨none, true, fun _ => true, ⟨.ok (), true⟩, false⟩
  [main, .quit, main, main, reload] ++ List.replicate (4 + n) main

/-- The new task gets a frame, which main hands to the file output; the reload thread destroys the
old task and flushes its batch. Then the two threads count, in the given order. -/
def countedBy (threads : List Counting.Thread) : List Counting.Act :=
  let cycle : Act := .main ⟨1, none, true⟩
  let poll : Act := .main ⟨1, none, false⟩
  let reload : Act := .reload ⟨none, true, fun _ => true, ⟨.ok (), true⟩, false⟩
  let before := untilBuildRequested ++ List.replicate 7 reload ++ List.replicate 5 cycle ++
    List.replicate 3 reload ++ [.arrive shortFrame fun _ => some .incoming] ++
    List.replicate 4 poll ++ [reload]
  let after := poll :: List.replicate 3 reload ++ List.replicate 4 cycle ++ untilDone 1
  before.map .worker ++ threads.map .count ++ after.map .worker

/-- Two tasks are created, one after the other, both are destroyed, and both frames are counted. -/
theorem tasks_destroyed_once_iff_second_task :
    ∃ s, exec (Counting.step zmqThenFile) (Counting.initial (taskWith "a" (.zmq "10.0.0.1"))
        fun _ => .ok ()) (countedBy (List.replicate 6 .reload ++ List.replicate 4 .main)) = some s ∧
      s.worker.ctl.main = .done ∧ (createdIn s.worker.ctl.trace).length = 2 ∧
      s.stats.value (.packets .fwd) = 2 ∧ Finished zmqThenFile s := by
  refine ⟨_, rfl, rfl, rfl, rfl, ?_⟩
  exact (tasks_destroyed_once_iff zmqThenFile (taskWith "a" (.zmq "10.0.0.1")) (fun _ => .ok ())
    (countedBy (List.replicate 6 .reload ++ List.replicate 4 .main)) _ (by decide +kernel)
    (by decide +kernel) rfl rfl (by decide +kernel)).mpr (by decide +kernel)

/-- Main and the reload thread add to `fwd_packets` at the same time: one of the two frames is in no
bucket. -/
theorem count_lost :
    ∃ s, exec (Counting.step zmqThenFile) (Counting.initial (taskWith "a" (.zmq "10.0.0.1"))
        fun _ => .ok ()) (countedBy [.reload, .main, .reload, .main, .reload, .main, .reload, .main,
          .reload, .reload]) = some s ∧
      s.worker.ctl.main = .done ∧ (destroyedIn s.worker.ctl.trace).length = 2 ∧
      s.worker.outputs.map (fun k => (lifeOf k.1 k.2 s.worker.calls).length) = [2, 2] ∧
      s.stats.value (.packets .fwd) = 1 ∧ s.stats.value (.packets .directionDrop) = 0 ∧
      s.stats.value (.packets .errorDrop) = 0 ∧ s.stats.value (.packets .ratelimitDrop) = 0 := by
  exact ⟨_, rfl, rfl, rfl, rfl, rfl, rfl, rfl, rfl⟩

/-- The quit comes between the survivors and the build: the old task is never destroyed, and its
frame stays in the open batch. -/
theorem task_lost :
    ∃ s t, exec (Counting.step zmqThenFile) (Counting.initial (taskWith "a" (.zmq "10.0.0.1"))
        fun _ => .ok ()) ((untilBuildRequested ++ untilDone 0).map .worker) = some s ∧
      s.worker.ctl.main = .done ∧ createdIn s.worker.ctl.trace = [t] ∧
      destroyedIn s.worker.ctl.trace = [] ∧
      lifeOf t 0 s.worker.calls =
        [some (.sendPacket shortFrame.hdr shortFrame.data .incoming)] ∧
      (∀ b, s.stats.value (.packets b) = 0) ∧ ¬Finished zmqThenFile s := by
  refine ⟨_, _, rfl, rfl, rfl, rfl, rfl, fun b => rfl, ?_⟩
  intro hfinished
  exact absurd hfinished.destroyed.length_eq (by decide)

end Threads

end CloudProbe.Worker
