import CloudProbe.Worker.ReloadWait
import CloudProbe.Worker.Threads

/-!
# The drain of the ring before a reclaim

Destroying a capture task while the ring still has a message for it, or while the output thread
works on one, leaves the output thread with a dangling pointer. `Handshake` relates the two flags,
the rounds of the drain that are left, and the tasks the messages may belong to. `Closing` is about
the end: the output thread empties the ring, and main joins it before it destroys the task list.
-/

namespace CloudProbe.Worker

open CloudProbe.Lib List

/-- The capture task a message belongs to.
Source: `ring_buffer.h` `ring_msg_t` -/
def RingMsg.user {τ : Type*} : RingMsg τ → τ
  | .packet user _ _ _ => user
  | .heartbeat user _ => user

@[simp] theorem CaptureEvent.toMsg_user {τ : Type*} (e : CaptureEvent τ) :
    e.toMsg.user = e.user := by
  unfold CaptureEvent.toMsg
  split <;> rfl

namespace Threads

open Reload (Ordered WaitStep BesideWait destroyedIn)

/-! ### Messages -/

def OutputPc.inHand : OutputPc → List (RingMsg CaptureTask)
  | .send _ m _ => [m]
  | _ => []

/-- The messages that were pushed and are not finished. -/
def State.messages (s : State) : List (RingMsg CaptureTask) := s.out.inHand ++ s.ring

def State.live (s : State) : List CaptureTask := captureTasks s.ctl.mgr.tasks

/-- The output thread is in a drain that was requested. -/
def OutputPc.draining : OutputPc → Bool
  | .used false | .drain false _ | .send (.drain false _) _ _ | .clearRequest | .setResponse => true
  | _ => false

/-- The messages the requested drain leaves in the ring. -/
def OutputPc.undrained (ring : List (RingMsg CaptureTask)) : OutputPc → List (RingMsg CaptureTask)
  | .drain false left | .send (.drain false left) _ _ => ring.drop left
  | .clearRequest | .setResponse => ring
  | _ => []

/-- A message may belong to a task of the task list or, until the wait for the drain is over, to one
of the tasks before the reload. -/
def State.MayUse (s : State) (t : CaptureTask) : Prop :=
  t ∈ s.live ∨
    ¬s.ctl.toCore.Drained ∧ ∃ r, s.ctl.current = some r ∧ t ∈ captureTasks r.before.tasks

structure Handshake (s : State) : Prop where
  request : s.request = true → s.ctl.reload.waiting = true ∧ s.response = false
  draining : s.out.draining = true → s.ctl.reload.waiting = true ∧ s.response = false
  undrained : ∀ m ∈ s.out.undrained s.ring, m.user ∈ s.live
  response : s.response = true → (∀ m ∈ s.messages, m.user ∈ s.live) ∧
    (s.ctl.reload.waiting = true ∨ s.ctl.reload = .drainAck ∨
      s.ctl.running = false ∧ s.ctl.reload.closing = true)
  users : ∀ m ∈ s.messages, s.MayUse m.user
  answering : s.out = .setResponse → s.request = false

variable {s s' : State}

theorem Handshake.congr (h : Handshake s) (hctl : s'.ctl = s.ctl) (hring : s'.ring = s.ring)
    (hout : s'.out = s.out) (hreq : s'.request = s.request) (hresp : s'.response = s.response) :
    Handshake s' := by
  obtain ⟨ctl, ring, out, outputRunning, request, response, handing, kernel, arrived, born,
    calls⟩ := s'
  subst hctl hring hout hreq hresp
  exact ⟨h.request, h.draining, h.undrained, h.response, h.users, h.answering⟩

theorem State.MayUse.of_live {t : CaptureTask} (h : t ∈ s.live) : s.MayUse t := Or.inl h

/-! ### The main thread -/

variable {m : RingMsg CaptureTask} {out : OutputPc}

theorem OutputPc.mem_undrained_push {ring : List (RingMsg CaptureTask)} {m' : RingMsg CaptureTask}
    (h : m' ∈ out.undrained (ring ++ [m])) :
    m' ∈ out.undrained ring ∨ m' = m := by
  have hdrop (left : ℕ) (hmem : m' ∈ (ring ++ [m]).drop left) : m' ∈ ring.drop left ∨ m' = m := by
    rw [drop_append] at hmem
    rcases mem_append.mp hmem with hmem | hmem
    · exact Or.inl hmem
    · exact Or.inr (mem_singleton.mp (mem_of_mem_drop hmem))
  unfold OutputPc.undrained at h ⊢
  split at h
  case h_1 | h_2 => exact hdrop _ h
  case h_3 | h_4 => exact hdrop 0 h
  case h_5 => cases h

/-- A message of a live task may be pushed. -/
theorem Handshake.push (h : Handshake s) (hm : m.user ∈ s.live)
    (rest : List (CaptureEvent CaptureTask)) :
    Handshake { s with handing := rest, ring := s.ring ++ [m] } := by
  have hmessages : ∀ m' ∈ s.out.inHand ++ (s.ring ++ [m]), m' ∈ s.messages ∨ m' = m := by
    intro m' hm'
    rw [← append_assoc] at hm'
    rcases mem_append.mp hm' with hm' | hm'
    · exact Or.inl hm'
    · exact Or.inr (mem_singleton.mp hm')
  refine ⟨h.request, h.draining, ?_, ?_, ?_, h.answering⟩
  · intro m' hm'
    rcases OutputPc.mem_undrained_push hm' with hold | rfl
    · exact h.undrained m' hold
    · exact hm
  · intro hresp
    refine ⟨?_, (h.response hresp).2⟩
    intro m' hm'
    rcases hmessages m' hm' with hold | rfl
    · exact (h.response hresp).1 m' hold
    · exact hm
  · intro m' hm'
    rcases hmessages m' hm' with hold | rfl
    · exact h.users m' hold
    · exact .of_live hm

theorem OutputPc.undrained_nil (ring : List (RingMsg CaptureTask)) (h : out.draining = false) :
    out.undrained ring = [] := by
  unfold OutputPc.undrained
  split
  all_goals first | rfl | cases h

theorem Handshake.request_eq_false (h : Handshake s) (hpc : s.ctl.reload.waiting = false) :
    s.request = false := by
  by_contra hne
  rw [(h.request (by simpa using hne)).1] at hpc
  cases hpc

theorem Handshake.draining_eq_false (h : Handshake s) (hpc : s.ctl.reload.waiting = false) :
    s.out.draining = false := by
  by_contra hne
  rw [(h.draining (by simpa using hne)).1] at hpc
  cases hpc

/-- A step of the main thread leaves the handshake alone, up to the task list. -/
theorem Handshake.beside (h : Handshake s) {exited : Bool} (hb : BesideWait s.ctl s'.ctl exited)
    (hring : s'.ring = s.ring) (hout : s'.out = s.out) (hreq : s'.request = s.request)
    (hresp : s'.response = s.response)
    (hundrained : ∀ m ∈ s.out.undrained s.ring, m.user ∈ s'.live)
    (hlive : s.response = true → ∀ m ∈ s.messages, m.user ∈ s'.live)
    (husers : ∀ m ∈ s.messages, s'.MayUse m.user) : Handshake s' := by
  have hmessages : s'.messages = s.messages := by
    rw [State.messages, hout, hring, State.messages]
  refine ⟨?_, ?_, ?_, ?_, ?_, by rw [hout, hreq]; exact h.answering⟩
  · rw [hreq, hresp, hb.reload]
    exact h.request
  · rw [hout, hresp, hb.reload]
    exact h.draining
  · rw [hout, hring]
    exact hundrained
  · rw [hresp, hmessages, hb.reload]
    intro hyes
    refine ⟨hlive hyes, (h.response hyes).2.imp_right (Or.imp_right fun hc => ⟨?_, hc.2⟩)⟩
    rcases hb.running with heq | ⟨hstop, -⟩
    · exact heq.trans hc.1
    · exact hstop
  · rw [hmessages]
    exact husers

/-- A step of main beside the wait keeps the handshake. -/
theorem Handshake.main (h : Handshake s) {exited : Bool} (hb : BesideWait s.ctl s'.ctl exited)
    (hring : s'.ring = s.ring) (hout : s'.out = s.out) (hreq : s'.request = s.request)
    (hresp : s'.response = s.response)
    (hlive : s'.live = s.live ∨ s.ctl.reload.holds = false ∧ s.ctl.running = true)
    (husers : ∀ t, s.MayUse t → s'.MayUse t) : Handshake s' := by
  have husers' : ∀ m ∈ s.messages, s'.MayUse m.user := fun m hm => husers _ (h.users m hm)
  rcases hlive with hlive | ⟨hholds, hrunning⟩
  · refine h.beside hb hring hout hreq hresp ?_ ?_ husers'
    · rw [hlive]
      exact h.undrained
    · rw [hlive]
      exact fun hyes => (h.response hyes).1
  · -- nothing is drained, and no answer waits for the reload thread
    have hwaiting : s.ctl.reload.waiting = false := by
      by_contra hne
      rw [Reload.ReloadPc.holds_of_waiting (by simpa using hne)] at hholds
      cases hholds
    refine h.beside hb hring hout hreq hresp ?_ ?_ husers'
    · rw [OutputPc.undrained_nil _ (h.draining_eq_false hwaiting)]
      nofun
    · intro hyes
      exfalso
      rcases (h.response hyes).2 with hwait | hack | ⟨hstop, -⟩
      · rw [hwaiting] at hwait
        cases hwait
      · rw [hack] at hholds
        cases hholds
      · rw [hrunning] at hstop
        cases hstop

theorem Handshake.main_ended (h : Handshake s) {exited : Bool}
    (hb : BesideWait s.ctl s'.ctl exited) (hexited : s.out = .exited) (hempty : s.ring = [])
    (hring : s'.ring = s.ring) (hout : s'.out = s.out) (hreq : s'.request = s.request)
    (hresp : s'.response = s.response) : Handshake s' := by
  have hnone : s.messages = [] := by
    rw [State.messages, hexited, hempty]
    rfl
  refine h.beside hb hring hout hreq hresp ?_ ?_ ?_
  · rw [hexited]
    nofun
  · rw [hnone]
    nofun
  · rw [hnone]
    nofun

/-- **The step lemma** for the main thread. -/
theorem handshake_mainStep (hord : Ordered s.ctl) (h : Handshake s)
    (hrunning : s.ctl.running = false → s.ctl.main.stopping = true)
    (hended : s.ctl.main.ended = true → s.out = .exited ∧ s.ring = []) {c : Reload.MainChoice}
    (hs : Reload.mainStep s.ctl c = some s'.ctl) (hring : s'.ring = s.ring) (hout : s'.out = s.out)
    (hreq : s'.request = s.request) (hresp : s'.response = s.response) : Handshake s' := by
  have hb := Reload.mainStep_wait hs
  by_cases hend : s.ctl.main.ended = true
  · obtain ⟨hexited, hempty⟩ := hended hend
    exact h.main_ended hb hexited hempty hring hout hreq hresp
  · have hend' : s.ctl.main.ended = false := by simpa using hend
    obtain ⟨⟨st, hat⟩, hist⟩ := hord.inv hend'
    -- when a report is handled, the reload thread is idle and not told to stop
    have hidle (hm : s.ctl.main = .handle) :
        s'.live = s.live ∨ s.ctl.reload.holds = false ∧ s.ctl.running = true := by
      refine Or.inr ⟨(Reload.handle_idle hat hm).1, ?_⟩
      by_contra hne
      have hstopping := hrunning (by simpa using hne)
      rw [hm] at hstopping
      cases hstopping
    have hkeep {t : CaptureTask} (hnot : ¬s.ctl.toCore.Drained) {r : Reload.Record}
        (hr : s'.ctl.current = some r) (ht : t ∈ captureTasks r.before.tasks) : s'.MayUse t :=
      Or.inr ⟨fun hdrained => hnot (hb.drained hdrained), r, hr, ht⟩
    have hearly {p : Reload.Phase} (hphase : s.ctl.phase = p) (hne : p ≠ .awaitingReclaim) :
        ¬s.ctl.toCore.Drained :=
      fun hdrained => hne (hphase.symm.trans hdrained.1)
    have hof {t : CaptureTask} {mgr : Reload.Mgr} (hmgr : s'.ctl.mgr = mgr)
        (ht : t ∈ captureTasks mgr.tasks) : s'.MayUse t :=
      .of_live (by rw [State.live, hmgr]; exact ht)
    have hmain := h.main hb hring hout hreq hresp
    cases Reload.mainStep_effect hat hist hs hend' with
    | quiet _ _ hcur hmgr | polled _ _ _ _ _ _ hcur hmgr =>
      refine hmain (Or.inl (by rw [State.live, hmgr, State.live])) ?_
      rintro t (ht | ⟨hnot, r, hr, ht⟩)
      · exact hof hmgr ht
      · exact hkeep hnot (hcur.trans hr) ht
    | started hnone _ _ _ hmgr =>
      refine hmain (Or.inl (by rw [State.live, hmgr, State.live])) ?_
      rintro t (ht | ⟨-, r, hr, -⟩)
      · exact hof hmgr ht
      · rw [hnone] at hr
        cases hr
    | survivors r config hm hr _ _ hbefore hphase _ _ hcur _ =>
      refine hmain (hidle hm) ?_
      have hnot := hearly hphase (by simp)
      rintro t (ht | ⟨-, r', hr', ht⟩)
      · rw [State.live, hbefore] at ht
        exact hkeep hnot (hcur.trans hr) ht
      · exact hkeep hnot (hcur.trans hr') ht
    | committed r config tasks errors hm hr _ hbefore _ hphase _ _ hcur _ =>
      refine hmain (hidle hm) ?_
      have hnot := hearly hphase (by simp)
      rintro t (ht | ⟨-, r', hr', ht⟩)
      · rw [State.live, hbefore] at ht
        obtain ⟨w, hw, rfl⟩ := mem_map.mp ht
        exact hkeep hnot (hcur.trans hr) (mem_map_of_mem (mem_of_mem_survivingTasks hw).1)
      · exact hkeep hnot (hcur.trans hr') ht
    | planFailed r hm hr _ _ _ _ hbefore hmgr =>
      refine hmain (hidle hm) ?_
      rintro t (ht | ⟨-, r', hr', ht⟩)
      · exact hof hmgr ht
      · obtain rfl := Option.some.inj (hr.symm.trans hr')
        exact hof (hmgr.trans hbefore) ht
    | buildFailed r config hm hr _ _ hbefore _ _ _ hmgr =>
      refine hmain (hidle hm) ?_
      rintro t (ht | ⟨-, r', hr', ht⟩)
      · rw [State.live, hbefore] at ht
        obtain ⟨w, hw, rfl⟩ := mem_map.mp ht
        exact hof hmgr (mem_map_of_mem (mem_of_mem_survivingTasks hw).1)
      · obtain rfl := Option.some.inj (hr.symm.trans hr')
        exact hof hmgr ht
    | completed r hm hr _ hphase _ _ _ hmgr =>
      refine hmain (hidle hm) ?_
      rintro t (ht | ⟨hnot, -⟩)
      · exact hof hmgr ht
      · -- a report of a reclaim comes after the wait
        obtain ⟨hholds, hmbox⟩ := Reload.handle_idle hat hm
        refine absurd ⟨hphase, hmbox, ?_⟩ hnot
        cases hpc : s.ctl.reload <;> rw [hpc] at hholds <;> first | rfl | cases hholds

/-! ### The reload thread -/

/-- A step with which the stop ends the wait for the drain before the answer is there. -/
def State.cutsWaitShort (s : State) : Act → Bool
  | .reload _ =>
    match s.ctl.reload with
    | .waitRunning => !s.ctl.running && !s.response
    | _ => false
  | _ => false

/-- What a step of the reload thread has to keep for the handshake. -/
theorem Handshake.reload (h : Handshake s) (hmgr : s'.ctl.mgr = s.ctl.mgr)
    (hring : s'.ring = s.ring) (hout : s'.out = s.out)
    (hreq : s'.request = true → s'.ctl.reload.waiting = true ∧ s'.response = false)
    (hdraining : s.out.draining = true → s'.ctl.reload.waiting = true ∧ s'.response = false)
    (hresp : s'.response = true → s.response = true ∧
      (s'.ctl.reload.waiting = true ∨ s'.ctl.reload = .drainAck ∨
        s'.ctl.running = false ∧ s'.ctl.reload.closing = true))
    (husers : ∀ m ∈ s.messages, s'.MayUse m.user)
    (hanswering : s.out = .setResponse → s'.request = false) : Handshake s' := by
  have hlive : s'.live = s.live := by rw [State.live, hmgr, State.live]
  have hmessages : s'.messages = s.messages := by
    rw [State.messages, hout, hring, State.messages]
  refine ⟨hreq, ?_, ?_, ?_, ?_, by rw [hout]; exact hanswering⟩
  · rw [hout]
    exact hdraining
  · rw [hout, hring, hlive]
    exact h.undrained
  · intro hyes
    obtain ⟨hyes', hwhere⟩ := hresp hyes
    rw [hmessages, hlive]
    exact ⟨(h.response hyes').1, hwhere⟩
  · rw [hmessages]
    exact husers

theorem Handshake.over_of_response (h : Handshake s) (hyes : s.response = true) :
    s.request = false ∧ s.out.draining = false := by
  constructor
  · by_contra hne
    rw [(h.request (by simpa using hne)).2] at hyes
    cases hyes
  · by_contra hne
    rw [(h.draining (by simpa using hne)).2] at hyes
    cases hyes

theorem Handshake.reload_over (h : Handshake s) (hmgr : s'.ctl.mgr = s.ctl.mgr)
    (hring : s'.ring = s.ring) (hout : s'.out = s.out) (hreq : s'.request = false)
    (hdraining : s.out.draining = false)
    (hresp : s'.response = true → s.response = true ∧
      (s'.ctl.reload.waiting = true ∨ s'.ctl.reload = .drainAck ∨
        s'.ctl.running = false ∧ s'.ctl.reload.closing = true))
    (husers : ∀ m ∈ s.messages, s'.MayUse m.user) : Handshake s' := by
  apply h.reload hmgr hring hout _ _ hresp husers fun _ => hreq
  · intro hyes
    rw [hreq] at hyes
    cases hyes
  · intro hyes
    rw [hdraining] at hyes
    cases hyes

/-- **The step lemma** for the reload thread. -/
theorem handshake_reloadStep (hord : Ordered s.ctl) (h : Handshake s) (hmodel : s.pipeline)
    {c : Reload.ReloadChoice} (hguard : s.cutsWaitShort (.reload c) = false)
    (hs : reloadStep s c = some s') : Handshake s' := by
  obtain ⟨ctl, hctl, hcase⟩ := reloadStep_cases hs
  have hend : s.ctl.main.ended = false := by
    by_contra hne
    rw [Reload.reloadStep, hord.exited (by simpa using hne)] at hctl
    cases hctl
  obtain ⟨⟨st, hat⟩, -⟩ := hord.inv hend
  have hsame := Reload.reloadStep_mainSame hctl
  have hfollow (hne : s.ctl.reload ≠ .drainRequest) (hne' : s.ctl.reload ≠ .drainAck) :
      s' = s.follow ctl := by
    rcases hcase with ⟨hreq, -⟩ | ⟨hack, -⟩ | ⟨-, -, hc⟩
    · exact absurd hreq hne
    · exact absurd hack hne'
    · exact hc
  -- a message may belong to the same tasks as long as the wait does not end
  have husers {s' : State} (hs' : s'.ctl = ctl)
      (hdrained : ctl.toCore.Drained → s.ctl.toCore.Drained) :
      ∀ m ∈ s.messages, s'.MayUse m.user := by
    intro m hm
    rcases h.users m hm with ht | ⟨hnot, r, hr, ht⟩
    · refine .of_live ?_
      rw [State.live, hs', hsame.mgr]
      exact ht
    · obtain ⟨r', hr', heq⟩ := Reload.reloadStep_before hat hctl hr
      refine Or.inr ⟨?_, r', ?_, heq ▸ ht⟩
      · rw [hs']
        exact fun hd => hnot (hdrained hd)
      · rw [hs']
        exact hr'
  -- when the wait ends, the answer says that all messages belong to live tasks
  have hanswered {s' : State} (hs' : s'.ctl = ctl) (hyes : s.response = true) :
      ∀ m ∈ s.messages, s'.MayUse m.user := by
    intro m hm
    refine .of_live ?_
    rw [State.live, hs', hsame.mgr]
    exact (h.response hyes).1 m hm
  cases Reload.reloadStep_wait hat hmodel hctl with
  | request hpc hpc' =>
    obtain rfl : s' = { s.follow ctl with request := true } := by
      rcases hcase with ⟨-, hc⟩ | ⟨hack, -⟩ | ⟨hne, -⟩
      · exact hc
      · rw [hpc] at hack
        cases hack
      · exact absurd hpc hne
    have hdraining := h.draining_eq_false (by rw [hpc]; rfl)
    have hno : s.response = false := by
      by_contra hne
      rcases (h.response (by simpa using hne)).2 with hw | hw | ⟨-, hw⟩ <;> rw [hpc] at hw <;>
        cases hw
    refine h.reload hsame.mgr rfl rfl ?_ ?_ ?_ (husers rfl ?_) ?_
    · intro _
      exact ⟨by rw [State.follow_ctl, hpc']; rfl, hno⟩
    · rw [hdraining]
      exact fun h => by cases h
    · intro hyes
      rw [show s.response = true from hyes] at hno
      cases hno
    · rintro ⟨-, -, hd⟩
      rw [hpc'] at hd
      cases hd
    · intro hout
      rw [hout] at hdraining
      cases hdraining
  | waits hpc hpc' =>
    obtain rfl := hfollow (by intro heq; rw [heq] at hpc; cases hpc)
      (by intro heq; rw [heq] at hpc; cases hpc)
    refine h.reload hsame.mgr rfl rfl ?_ ?_ ?_ (husers rfl ?_) h.answering
    · exact fun hreq => ⟨hpc', (h.request hreq).2⟩
    · exact fun hd => ⟨hpc', (h.draining hd).2⟩
    · exact fun hyes => ⟨hyes, Or.inl hpc'⟩
    · rintro ⟨-, -, hd⟩
      cases hr : ctl.reload <;> rw [hr] at hpc' hd <;> first | cases hpc'; done | cases hd
  | stopped hpc hstop rest hpc' =>
    have hyes : s.response = true := by
      simpa [State.cutsWaitShort, hpc, hstop] using hguard
    obtain ⟨hreq, hdraining⟩ := h.over_of_response hyes
    obtain rfl := hfollow (by simp [hpc]) (by simp [hpc])
    refine h.reload_over hsame.mgr rfl rfl hreq hdraining ?_ (hanswered rfl hyes)
    intro _
    refine ⟨hyes, Or.inr (Or.inr ⟨?_, ?_⟩)⟩
    · rw [State.follow_ctl, hsame.running]
      exact hstop
    · rw [State.follow_ctl, hpc']
      rfl
  | answered hpc hyes hpc' =>
    obtain ⟨hreq, hdraining⟩ := h.over_of_response hyes
    obtain rfl := hfollow (by simp [hpc]) (by simp [hpc])
    refine h.reload_over hsame.mgr rfl rfl hreq hdraining ?_ (hanswered rfl hyes)
    intro _
    exact ⟨hyes, Or.inr (Or.inl hpc')⟩
  | acked hpc rest hpc' hmbox =>
    obtain rfl : s' = { s.follow ctl with response := false } := by
      rcases hcase with ⟨hreq, -⟩ | ⟨-, hc⟩ | ⟨-, hne, -⟩
      · rw [hpc] at hreq
        cases hreq
      · exact hc
      · exact absurd hpc hne
    have hwaiting : s.ctl.reload.waiting = false := by rw [hpc]; rfl
    refine h.reload_over hsame.mgr rfl rfl (h.request_eq_false hwaiting)
      (h.draining_eq_false hwaiting) ?_
      (husers rfl fun hd => hd.of_same hsame.phase hmbox (by rw [hpc]; rfl))
    exact fun h => by cases h
  | other hpc hne hne' hpc' hclosing hdrained =>
    obtain rfl := hfollow hne hne'
    refine h.reload_over hsame.mgr rfl rfl (h.request_eq_false hpc) (h.draining_eq_false hpc) ?_
      (husers rfl hdrained)
    intro hyes
    refine ⟨hyes, ?_⟩
    rcases (h.response hyes).2 with hw | hw | ⟨hstop, hcl⟩
    · rw [hpc] at hw
      cases hw
    · exact absurd hw hne'
    · refine Or.inr (Or.inr ⟨?_, hclosing hstop hcl⟩)
      rw [State.follow_ctl, hsame.running]
      exact hstop

/-! ### The output thread -/

namespace OutputMoves

theorem messages (h : OutputMoves s s') : ∀ m ∈ s'.messages, m ∈ s.messages := by
  intro m hm
  unfold State.messages at hm ⊢
  cases h with
  | looks hpc | unasked hpc | clears hpc | answers hpc | misses hpc | calls _ _ _ _ hpc _ =>
    rw [hpc]
    exact hm
  | leaves hpc _ | asked hpc _ | counts _ hpc =>
    rw [hpc]
    exact hm
  | drained last left hpc _ =>
    rw [hpc]
    cases last <;> exact hm
  | drains _ _ _ _ hpc hring | pops _ _ hpc hring =>
    rw [hpc, hring]
    exact hm
  | sent k m' i hpc =>
    rw [hpc]
    refine mem_append_right _ ?_
    cases k <;> exact hm

theorem request (h : OutputMoves s s') (hreq : s'.request = true) : s.request = true := by
  cases h with
  | clears _ => cases hreq
  | _ => exact hreq

theorem response (h : OutputMoves s s') :
    s.out = .setResponse ∧ s' = { s with response := true, out := .pop } ∨
      s'.response = s.response := by
  cases h with
  | answers hpc => exact Or.inl ⟨hpc, rfl⟩
  | _ => exact Or.inr rfl

theorem answering (h : OutputMoves s s') (hset : s'.out = .setResponse) : s'.request = false := by
  cases h with
  | clears _ => rfl
  | drained last _ _ _ => cases last <;> cases hset
  | sent k _ _ _ => cases k <;> cases hset
  | _ => cases hset

theorem draining (h : OutputMoves s s') (hd : s'.out.draining = true) :
    s.out.draining = true ∨ s.request = true := by
  cases h with
  | asked _ hreq => exact Or.inr hreq
  | counts last hpc | drained last _ hpc _ | drains last _ _ _ hpc _ =>
    rw [hpc]
    cases last <;> exact Or.inl hd
  | clears hpc =>
    rw [hpc]
    exact Or.inl hd
  | calls k _ _ _ hpc _ | sent k _ _ hpc =>
    rw [hpc]
    rcases k with _ | ⟨last, left⟩
    · cases hd
    · cases last <;> exact Or.inl hd
  | _ => cases hd

/-- The output thread leaves no message undrained that was not. -/
theorem undrained (h : OutputMoves s s') :
    ∀ m ∈ s'.out.undrained s'.ring, m ∈ s.out.undrained s.ring := by
  intro m hm
  cases h with
  | counts last hpc =>
    cases last with
    | false =>
      -- all messages of the ring are to be drained
      simp only [OutputPc.undrained, drop_length] at hm
      cases hm
    | true => cases hm
  | drained last left hpc hnone =>
    cases last with
    | false =>
      rw [hpc]
      rcases hnone with rfl | hring
      · exact hm
      · rw [show (afterDrain false).undrained s.ring = s.ring from rfl, hring] at hm
        cases hm
    | true => cases hm
  | drains last left _ ring hpc hring =>
    rw [hpc, hring]
    cases last <;> exact hm
  | clears hpc =>
    rw [hpc]
    exact hm
  | calls k _ _ _ hpc _ | sent k _ _ hpc =>
    rw [hpc]
    rcases k with _ | ⟨last, left⟩
    · cases hm
    · cases last <;> exact hm
  | _ => cases hm

end OutputMoves

/-- **The step lemma** for the output thread. -/
theorem handshake_outputStep (h : Handshake s) (hs : outputStep s = some s') : Handshake s' := by
  have hmove := outputStep_moves hs
  have hctl : s'.ctl = s.ctl := (outputStep_same hs).1
  have hlive : s'.live = s.live := by rw [State.live, hctl, State.live]
  rcases hmove.response with ⟨hpc, rfl⟩ | hresp
  · -- the answer: what the drain left belongs to live tasks
    have hdraining := h.draining
    have hundrained := h.undrained
    rw [hpc] at hdraining hundrained
    refine ⟨?_, ?_, ?_, ?_, ?_, by intro hset; cases hset⟩
    · intro hreq
      rw [show s.request = false from h.answering hpc] at hreq
      cases hreq
    · nofun
    · nofun
    · exact fun _ => ⟨hundrained, Or.inl (hdraining rfl).1⟩
    · exact fun m hm => .of_live (hundrained m hm)
  · refine ⟨?_, ?_, ?_, ?_, ?_, hmove.answering⟩
    · rw [hctl, hresp]
      exact fun hreq => h.request (hmove.request hreq)
    · rw [hctl, hresp]
      intro hd
      rcases hmove.draining hd with hd | hreq
      · exact h.draining hd
      · exact h.request hreq
    · rw [hlive]
      exact fun m hm => h.undrained m (hmove.undrained m hm)
    · rw [hresp, hctl, hlive]
      intro hyes
      exact ⟨fun m hm => (h.response hyes).1 m (hmove.messages m hm), (h.response hyes).2⟩
    · intro m hm
      have huse := h.users m (hmove.messages m hm)
      unfold State.MayUse at huse ⊢
      rw [hlive, hctl]
      exact huse

/-! ### What main hands over -/

/-- Main hands over while it polls, and what it hands over belongs to tasks of the task list. -/
structure Handing (s : State) : Prop where
  live : ∀ e ∈ s.handing, e.user ∈ s.live
  polling : s.handing ≠ [] → ∃ rest, s.ctl.main = .poll rest

theorem Handing.nil (h : s.handing = []) : Handing s where
  live := by
    rw [h]
    nofun
  polling := fun hne => absurd h hne

theorem Handing.congr (h : Handing s) (hmgr : s'.ctl.mgr = s.ctl.mgr)
    (hmain : s'.ctl.main = s.ctl.main) (hsub : s'.handing ⊆ s.handing) : Handing s' where
  live := by
    intro e he
    rw [State.live, hmgr]
    exact h.live e (hsub he)
  polling := by
    intro hne
    rw [hmain]
    apply h.polling
    intro hnil
    rw [hnil] at hsub
    exact hne (subset_nil.mp hsub)

/-- **The step lemma**: what main hands over is of live tasks. -/
theorem handing_step (hord : Ordered s.ctl) (h : Handing s) {a : Act} (hs : step s a = some s') :
    Handing s' := by
  cases a with
  | main c =>
    rcases mainStep_cases hs with ⟨e, rest, hhand, hover⟩ | ⟨hhand, ctl, hctl, hcase⟩
    · refine h.congr ?_ ?_ ?_
      · rw [(handOver_same hover).1]
      · rw [(handOver_same hover).1]
      · rw [hhand, handOver_handing hover]
        exact subset_cons_self e rest
    · rcases hcase with ⟨t, rest, hmain, rfl⟩ | ⟨-, rfl⟩ | ⟨-, -, rfl⟩
      · -- a poll: the task is in the task list
        obtain ⟨-, hist⟩ := hord.inv (by rw [hmain]; rfl)
        have ht := hist.polls _ hmain t mem_cons_self
        simp only [Reload.mainStep, hmain, Option.some.injEq] at hctl
        subst hctl
        refine ⟨fun e he => ?_, fun _ => ⟨rest, rfl⟩⟩
        rw [mem_pollEvents he]
        exact mem_map_of_mem ht
      all_goals exact .nil hhand
  | reload c =>
    obtain ⟨ctl, hctl, hcase⟩ := reloadStep_cases hs
    have hsame := Reload.reloadStep_mainSame hctl
    rcases hcase with ⟨-, rfl⟩ | ⟨-, rfl⟩ | ⟨-, -, rfl⟩
    all_goals exact h.congr hsame.mgr hsame.main (List.Subset.refl _)
  | output =>
    refine h.congr ?_ ?_ ?_
    · rw [(outputStep_same hs).1]
    · rw [(outputStep_same hs).1]
    · rw [outputStep_handing hs]
      exact List.Subset.refl _
  | signal | quit | arrive p reaches =>
    cases hs
    exact h.congr rfl rfl (List.Subset.refl _)

/-! ### The end of the output thread -/

/-- The output thread has left its main loop. -/
def OutputPc.isLast : OutputPc → Bool
  | .used true | .drain true _ | .send (.drain true _) _ _ | .exited => true
  | _ => false

/-- The last drain has enough rounds for the ring, and leaves it empty. -/
def OutputPc.LastOk (ring : List (RingMsg CaptureTask)) : OutputPc → Prop
  | .drain true left | .send (.drain true left) _ _ => ring.length ≤ left
  | .exited => ring = []
  | _ => True

theorem OutputPc.lastOk_of_loop (h : out.isLast = false) (ring : List (RingMsg CaptureTask)) :
    out.LastOk ring := by
  unfold OutputPc.LastOk
  split
  all_goals trivial

/-- How the threads end: main tells them to stop, one after the other. -/
structure Closing (s : State) : Prop where
  stopped : s.outputRunning = false → s.ctl.main.outputStopped = true
  last : s.out.isLast = true → s.outputRunning = false
  lastOk : s.out.LastOk s.ring
  exited : s.ctl.main.ended = true → s.out = .exited
  running : s.ctl.running = false → s.ctl.main.stopping = true

theorem Closing.empty (h : Closing s) (hend : s.ctl.main.ended = true) :
    s.out = .exited ∧ s.ring = [] := by
  have hexited := h.exited hend
  have hok := h.lastOk
  rw [hexited] at hok
  exact ⟨hexited, hok⟩

theorem Closing.loop_of_handing (h : Closing s) (hhanding : Handing s) (hhand : s.handing ≠ []) :
    s.out.isLast = false := by
  by_contra hne
  obtain ⟨rest, hmain⟩ := hhanding.polling hhand
  have hstopped := h.stopped (h.last (by simpa using hne))
  rw [hmain] at hstopped
  cases hstopped

theorem closing_handOver (h : Closing s) (hhanding : Handing s) {e : CaptureEvent CaptureTask}
    {rest : List (CaptureEvent CaptureTask)} (hhand : s.handing = e :: rest)
    (hs : s.handOver e rest = some s') : Closing s' := by
  have hne : s.handing ≠ [] := by
    rw [hhand]
    exact cons_ne_nil e rest
  unfold State.handOver at hs
  split_ifs at hs <;> cases hs
  · exact ⟨h.stopped, h.last, h.lastOk, h.exited, h.running⟩
  · exact ⟨h.stopped, h.last, OutputPc.lastOk_of_loop (h.loop_of_handing hhanding hne) _, h.exited,
      h.running⟩
  · exact ⟨h.stopped, h.last, h.lastOk, h.exited, h.running⟩

/-- **The step lemma** for the end, in the main thread. -/
theorem closing_mainStep (h : Closing s) (hhanding : Handing s) {c : MainChoice}
    (hs : mainStep s c = some s') : Closing s' := by
  rcases mainStep_cases hs with ⟨e, rest, hhand, hover⟩ | ⟨-, ctl, hctl, hcase⟩
  · exact closing_handOver h hhanding hhand hover
  · have hb := Reload.mainStep_wait hctl
    have hrunning : ctl.running = false → ctl.main.stopping = true := by
      intro hstop
      rcases hb.running with heq | ⟨-, hstopping⟩
      · rw [heq] at hstop
        exact hb.stopping (h.running hstop)
      · exact hstopping
    have hexited : ctl.main.ended = true → s.out = .exited := by
      intro hend
      rcases hb.ended hend with hend' | hout
      · exact h.exited hend'
      · cases hpc : s.out <;> rw [hpc] at hout <;> first | rfl | cases hout
    have hstopped : s.outputRunning = false → ctl.main.outputStopped = true :=
      fun hstop => hb.outputStopped (Or.inl (h.stopped hstop))
    rcases hcase with ⟨t, rest, -, rfl⟩ | ⟨hmain, rfl⟩ | ⟨-, -, rfl⟩
    · exact ⟨hstopped, h.last, h.lastOk, hexited, hrunning⟩
    · exact ⟨fun _ => hb.outputStopped (Or.inr hmain), fun _ => rfl, h.lastOk, hexited, hrunning⟩
    · exact ⟨hstopped, h.last, h.lastOk, hexited, hrunning⟩

/-- **The step lemma** for the end, in the reload thread. -/
theorem closing_reloadStep (h : Closing s) {c : Reload.ReloadChoice}
    (hs : reloadStep s c = some s') : Closing s' := by
  obtain ⟨ctl, hctl, hcase⟩ := reloadStep_cases hs
  have hsame := Reload.reloadStep_mainSame hctl
  have hclosing : Closing (s.follow ctl) := by
    refine ⟨?_, h.last, h.lastOk, ?_, ?_⟩
    · rw [State.follow_ctl, hsame.main]
      exact h.stopped
    · rw [State.follow_ctl, hsame.main]
      exact h.exited
    · rw [State.follow_ctl, hsame.main, hsame.running]
      exact h.running
  rcases hcase with ⟨-, rfl⟩ | ⟨-, rfl⟩ | ⟨-, -, rfl⟩
  · exact ⟨hclosing.stopped, hclosing.last, hclosing.lastOk, hclosing.exited, hclosing.running⟩
  · exact ⟨hclosing.stopped, hclosing.last, hclosing.lastOk, hclosing.exited, hclosing.running⟩
  · exact hclosing

theorem OutputMoves.isLast (h : OutputMoves s s') (hl : s'.out.isLast = true) :
    s.out.isLast = true ∨ s.outputRunning = false := by
  cases h with
  | leaves _ hstop => exact Or.inr hstop
  | counts last hpc | drained last _ hpc _ | drains last _ _ _ hpc _ =>
    rw [hpc]
    cases last <;> exact Or.inl hl
  | calls k _ _ _ hpc _ | sent k _ _ hpc =>
    rw [hpc]
    rcases k with _ | ⟨last, left⟩
    · cases hl
    · cases last <;> exact Or.inl hl
  | _ => cases hl

/-- The rounds left of the last drain keep covering the ring. -/
theorem OutputMoves.lastOk (h : OutputMoves s s') (hok : s.out.LastOk s.ring) :
    s'.out.LastOk s'.ring := by
  cases h with
  | counts last _ =>
    cases last with
    | false => trivial
    | true => exact le_refl _
  | drained last left hpc hnone =>
    cases last with
    | false => trivial
    | true =>
      rw [hpc] at hok
      rcases hnone with rfl | hring
      · exact eq_nil_of_length_eq_zero (Nat.le_zero.mp hok)
      · exact hring
  | drains last left _ _ hpc hring =>
    cases last with
    | false => trivial
    | true =>
      rw [hpc, hring] at hok
      exact Nat.le_of_succ_le_succ hok
  | calls k _ _ _ hpc _ | sent k _ _ hpc =>
    rw [hpc] at hok
    rcases k with _ | ⟨last, left⟩
    · trivial
    · cases last <;> exact hok
  | _ => trivial

theorem closing_outputStep (h : Closing s) (hs : outputStep s = some s') : Closing s' := by
  have hmove := outputStep_moves hs
  have hctl : s'.ctl = s.ctl := (outputStep_same hs).1
  have hrun : s'.outputRunning = s.outputRunning := by
    cases hmove
    all_goals rfl
  refine ⟨?_, ?_, hmove.lastOk h.lastOk, ?_, ?_⟩
  · rw [hctl, hrun]
    exact h.stopped
  · rw [hrun]
    intro hl
    rcases hmove.isLast hl with hl | hstop
    · exact h.last hl
    · exact hstop
  · rw [hctl]
    intro hend
    rw [outputStep, h.exited hend] at hs
    cases hs
  · rw [hctl]
    exact h.running

/-! ### The result -/

structure Safe (s : State) : Prop where
  ordered : Ordered s.ctl
  pipeline : s.pipeline
  handing : Handing s
  closing : Closing s
  handshake : Handshake s

theorem step_pipeline {a : Act} (hord : Ordered s.ctl) (hs : step s a = some s') :
    s'.pipeline ↔ s.pipeline := by
  rcases step_ctl s a s' hs with heq | ⟨b, hb⟩
  · rw [State.pipeline, heq, State.pipeline]
  · rw [State.pipeline, Reload.step_executionModel hord hb, State.pipeline]

/-- **The step lemma**: every step that cuts no wait short is safe. -/
theorem safe_step (s : State) (a : Act) (s' : State) (h : Safe s)
    (hguard : s.cutsWaitShort a = false)
    (hs : step s a = some s') : Safe s' := by
  obtain ⟨hord, hmodel, hhanding, hclosing, hshake⟩ := h
  refine ⟨step_ordered hord hs, (step_pipeline hord hs).mpr hmodel, handing_step hord hhanding hs,
    ?_, ?_⟩
  · cases a with
    | main c => exact closing_mainStep hclosing hhanding hs
    | reload c => exact closing_reloadStep hclosing hs
    | output => exact closing_outputStep hclosing hs
    | signal | quit | arrive p reaches =>
      cases hs
      exact ⟨hclosing.stopped, hclosing.last, hclosing.lastOk, hclosing.exited, hclosing.running⟩
  · cases a with
    | main c =>
      rcases mainStep_cases hs with ⟨e, rest, hhand, hover⟩ | ⟨-, ctl, hctl, hcase⟩
      · have huser : e.toMsg.user ∈ s.live := by
          rw [CaptureEvent.toMsg_user]
          apply hhanding.live e
          rw [hhand]
          exact mem_cons_self
        unfold State.handOver at hover
        split_ifs at hover <;> cases hover
        · exact hshake.congr rfl rfl rfl rfl rfl
        · exact hshake.push huser rest
      · have hmain {s' : State} (hs' : s'.ctl = ctl) (hring : s'.ring = s.ring)
            (hout : s'.out = s.out) (hreq : s'.request = s.request)
            (hresp : s'.response = s.response) : Handshake s' :=
          handshake_mainStep hord hshake hclosing.running hclosing.empty
            (hctl.trans (by rw [hs'])) hring hout hreq hresp
        rcases hcase with ⟨t, rest, -, rfl⟩ | ⟨-, rfl⟩ | ⟨-, -, rfl⟩
        all_goals exact hmain rfl rfl rfl rfl rfl
    | reload c => exact handshake_reloadStep hord hshake hmodel hguard hs
    | output => exact handshake_outputStep hshake hs
    | signal | quit =>
      cases hs
      exact ⟨hshake.request, hshake.draining, hshake.undrained, hshake.response, hshake.users,
        hshake.answering⟩
    | arrive p reaches =>
      cases hs
      exact hshake.congr rfl rfl rfl rfl rfl

/-- The worker starts safe. -/
theorem safe_initial {config : Config} (hmodel : config.executionModel = .pipeline)
    (create : ℕ → Except String Unit) : Safe (initial config create) := by
  have hout : (initial config create).out = .loop := by
    simp only [initial, hmodel, if_true]
  refine ⟨Reload.ordered_initial config create, hmodel, .nil rfl, ?_, ?_⟩
  · refine ⟨?_, ?_, ?_, ?_, ?_⟩
    · intro hstop
      simp [initial, hmodel] at hstop
    · rw [hout]
      nofun
    · rw [hout]
      trivial
    · nofun
    · nofun
  · have hnone : (initial config create).messages = [] := by
      rw [State.messages, hout]
      rfl
    refine ⟨?_, ?_, ?_, ?_, ?_, ?_⟩
    · nofun
    · rw [hout]
      nofun
    · rw [hout]
      nofun
    · nofun
    · rw [hnone]
      nofun
    · exact fun _ => rfl

theorem Safe.not_destroyed (h : Safe s) {t : CaptureTask} (ht : t ∈ destroyedIn s.ctl.trace)
    (hm : m ∈ s.messages) : m.user ≠ t := by
  rintro rfl
  by_cases hend : s.ctl.main.ended = true
  · obtain ⟨hout, hring⟩ := h.closing.empty hend
    rw [State.messages, hout, hring] at hm
    cases hm
  · obtain ⟨⟨st, hat⟩, hist⟩ := h.ordered.inv (by simpa using hend)
    rcases h.handshake.users m hm with hlive | ⟨hnot, r, hr, hold⟩
    · obtain ⟨w, hw, heq⟩ := mem_map.mp hlive
      exact (Reload.destroyed_once hat hist).2 w hw (heq ▸ ht)
    · exact Reload.old_not_destroyed hat hist hr hnot hold ht

/-- **A destroyed task is not referenced by the pipeline**, in every run that cuts no wait for the
drain short. Source: `task.c` `wait_output_drain_ring_response`, `reload_do_reclaim`,
`task_manager_output_loop` -/
theorem destroyed_not_in_ring (config : Config) (hmodel : config.executionModel = .pipeline)
    (create : ℕ → Except String Unit) (acts : List Act) (s : State)
    (hguard : Guarded step (fun s a => s.cutsWaitShort a = false) (initial config create) acts)
    (hrun : exec step (initial config create) acts = some s) :
    ∀ t ∈ destroyedIn s.ctl.trace, ∀ m ∈ s.messages, m.user ≠ t := by
  have hsafe : Safe s := exec_invariant_of_guard safe_step (safe_initial hmodel create) hguard hrun
  exact fun t ht m hm => hsafe.not_destroyed ht hm

def pipelineTask (fingerprint host : String) : Config where
  tasks := [⟨some fingerprint, .libpcap "" false, [.vxlan host]⟩]
  unique := nodup_singleton _
  executionModel := .pipeline
  bufferSizeMb := 1
  bufferSize_lt := by decide

/-- A poll of the first task pushes a heartbeat; then a reload to another task goes on until the
reload thread waits for the drain. -/
def untilWaiting : List Act :=
  let poll : Act := .main ⟨0, some 0, true⟩
  let main : Act := .main ⟨0, none, true⟩
  let reload : Act :=
    .reload ⟨some (pipelineTask "b" "10.0.0.2"), true, fun _ => true, ⟨.ok (), true⟩, false⟩
  .signal :: List.replicate 3 poll ++ List.replicate 5 main ++ List.replicate 6 reload ++
    List.replicate 4 main ++ List.replicate 7 reload ++ List.replicate 5 main ++
    List.replicate 4 reload

/-- The output thread drains the ring and answers, the reload thread destroys the old task, and main
polls the new one, which pushes a heartbeat. -/
def untilReclaimed : List Act :=
  untilWaiting ++ List.replicate 9 .output ++
    List.replicate 4 (.reload ⟨none, true, fun _ => true, ⟨.ok (), true⟩, false⟩) ++
    List.replicate 5 (.main ⟨0, some 1, false⟩)

/-- The old task is destroyed, and the message in the ring belongs to the new one. -/
theorem destroyed_not_in_ring_reclaimed :
    ∃ s t m, exec step (initial (pipelineTask "a" "10.0.0.1") fun _ => .ok ()) untilReclaimed =
        some s ∧
      destroyedIn s.ctl.trace = [t] ∧ s.messages = [m] ∧ m.user ≠ t := by
  refine ⟨_, _, _, rfl, rfl, rfl, ?_⟩
  exact destroyed_not_in_ring (pipelineTask "a" "10.0.0.1") rfl (fun _ => .ok ()) untilReclaimed _
    (by decide +kernel) rfl _ mem_cons_self _ mem_cons_self

/-- Main is told to quit while the reload thread waits, and tells it to stop; the reload thread
destroys the old task. -/
def untilCutShort : List Act :=
  untilWaiting ++ [.quit] ++ List.replicate 4 (.main ⟨0, none, false⟩) ++
    List.replicate 2 (.reload ⟨none, true, fun _ => true, ⟨.ok (), true⟩, false⟩)

/-- The stop cuts the wait short: the old task is destroyed while its message is in the ring. -/
theorem destroyed_in_ring :
    ∃ s t m, exec step (initial (pipelineTask "a" "10.0.0.1") fun _ => .ok ()) untilCutShort =
        some s ∧
      t ∈ destroyedIn s.ctl.trace ∧ m ∈ s.messages ∧ m.user = t :=
  ⟨_, _, _, rfl, mem_cons_self, mem_cons_self, rfl⟩

end Threads

end CloudProbe.Worker
