import CloudProbe.Worker.ReloadOrder

/-!
# The wait for the drain

Before the reload thread destroys old tasks in the pipeline, it asks the output thread to drain the
ring and waits for the answer, or for the stop (`WaitStep`). Main beside it does not end the wait,
it can only tell the reload thread to stop (`BesideWait`).
-/

namespace CloudProbe.Worker

open CloudProbe.Lib List Option

namespace Reload

/-! ### The wait of the reload thread -/

def ReloadPc.waiting : ReloadPc → Bool
  | .waitRunning | .waitResponse => true
  | _ => false

theorem ReloadPc.holds_of_waiting {pc : ReloadPc} (h : pc.waiting = true) : pc.holds = true := by
  cases pc <;> first | rfl | cases h

/-- The reload thread has a request and has not come to the end of the wait. -/
def ReloadPc.beforeDrain : ReloadPc → Bool
  | .dispatch | .drainRequest | .waitRunning | .waitResponse => true
  | _ => false

/-- What the reload thread goes through between the wait and its end, once it is stopped. -/
def ReloadPc.closing : ReloadPc → Bool
  | .reclaim _ | .report _ _ | .send _ | .check | .exited => true
  | _ => false

/-- The wait of the last request for a reclaim is over. -/
def Core.Drained (c : Core) : Prop :=
  c.phase = .awaitingReclaim ∧ c.reloadMbox = false ∧ c.reload.beforeDrain = false

/-- A step of the reload thread in the pipeline, as far as the drain is concerned. -/
inductive WaitStep (s s' : State) (response : Bool) : Prop where
  | request (pc : s.reload = .drainRequest) (pc' : s'.reload = .waitRunning)
  | waits (pc : s.reload.waiting = true) (pc' : s'.reload.waiting = true)
  | stopped (pc : s.reload = .waitRunning) (stop : s.running = false) (rest : List Task)
      (pc' : s'.reload = .reclaim rest)
  | answered (pc : s.reload = .waitResponse) (yes : response = true) (pc' : s'.reload = .drainAck)
  | acked (pc : s.reload = .drainAck) (rest : List Task) (pc' : s'.reload = .reclaim rest)
      (mbox : s'.reloadMbox = s.reloadMbox)
  | other (pc : s.reload.waiting = false) (req : s.reload ≠ .drainRequest)
      (ack : s.reload ≠ .drainAck) (pc' : s'.reload.waiting = false)
      (closing : s.running = false → s.reload.closing = true → s'.reload.closing = true)
      (drained : s'.toCore.Drained → s.toCore.Drained)

variable {st : Stage} {s s' : State}

theorem Core.Drained.of_same {c c' : Core} (h : c'.Drained) (hphase : c'.phase = c.phase)
    (hmbox : c'.reloadMbox = c.reloadMbox) (hpc : c.reload.beforeDrain = false) : c.Drained :=
  ⟨hphase ▸ h.1, hmbox ▸ h.2.1, hpc⟩

theorem WaitStep.of_same {response : Bool} {pc : ReloadPc} (hpc : s.reload = pc)
    (hbefore : pc.beforeDrain = false) (hack : pc ≠ .drainAck) (hpc' : s'.reload.waiting = false)
    (hclosing : pc.closing = true → s'.reload.closing = true)
    (hmbox : s'.reloadMbox = s.reloadMbox) (hphase : s'.phase = s.phase) :
    WaitStep s s' response := by
  subst hpc
  refine .other ?_ ?_ hack hpc' (fun _ => hclosing) fun h => h.of_same hphase hmbox hbefore
  · cases hpc : s.reload <;> rw [hpc] at hbefore <;> first | rfl | cases hbefore
  · intro heq
    rw [heq] at hbefore
    cases hbefore

/-- A handler starts neither waiting nor drained. -/
theorem dispatch_wait (ch : ReloadChoice) (hat : st.At s.main s.toCore)
    (hmodel : s.mgr.executionModel = .pipeline) (hpc : s.reload = .dispatch) :
    (reloadDispatch s ch).reload.waiting = false ∧ ¬(reloadDispatch s ch).toCore.Drained := by
  rcases hat.of_holds (by rw [hpc]; rfl) with rfl | rfl | rfl
  · obtain ⟨hctl, r, -, -, -, -, hdata⟩ := hat
    simp only [PlanData, hpc] at hdata
    rw [reloadDispatch, hdata.1]
    refine ⟨rfl, ?_⟩
    rintro ⟨hphase, -⟩
    rw [show s.phase = .awaitingSurvivors from hctl.phase_eq] at hphase
    cases hphase
  · obtain ⟨hctl, r, config, -, -, -, -, hdata⟩ := hat
    simp only [BuildData, hpc] at hdata
    have hphase' : s.phase = .awaitingNewTasks := hctl.phase_eq
    rw [reloadDispatch, hdata.1]
    simp only [buildFailed]
    split_ifs
    all_goals
      refine ⟨rfl, ?_⟩
      rintro ⟨hphase, -⟩
      rw [hphase'] at hphase
      cases hphase
  · obtain ⟨-, r, config, tasks, errors, -, -, -, -, -, htx, -⟩ := hat
    rw [reloadDispatch, htx]
    simp only [hmodel, if_true]
    refine ⟨rfl, ?_⟩
    rintro ⟨-, -, hpc'⟩
    cases hpc'

/-- What a step of the reload thread does to the wait for the drain. -/
theorem reloadStep_wait {ch : ReloadChoice} (hat : st.At s.main s.toCore)
    (hmodel : s.mgr.executionModel = .pipeline) (hs : reloadStep s ch = some s') :
    WaitStep s s' ch.response := by
  unfold reloadStep at hs
  cases hpc : s.reload <;> simp only [hpc, some.injEq, reduceCtorEq] at hs
  case build i rest tasks errors =>
    unfold buildStep at hs
    repeat' split at hs
    all_goals cases hs
    all_goals exact .of_same hpc rfl (by simp) rfl (fun h => by cases h) rfl rfl
  all_goals subst hs
  case check =>
    refine .other (by rw [hpc]; rfl) (by simp [hpc]) (by simp [hpc]) ?_ ?_ ?_
    · split_ifs <;> rfl
    · intro hrun _
      rw [hrun]
      rfl
    · exact fun h => h.of_same rfl rfl (by rw [hpc]; rfl)
  case recv =>
    refine .other (by rw [hpc]; rfl) (by simp [hpc]) (by simp [hpc]) ?_ ?_ ?_
    · split_ifs <;> rfl
    · rw [hpc]
      exact fun _ h => by cases h
    · rintro ⟨hphase, -, hpc'⟩
      by_cases hmbox : s.reloadMbox = true
      · simp only [hmbox, if_true] at hpc'
        cases hpc'
      · exact ⟨hphase, by simpa using hmbox, by rw [hpc]; rfl⟩
  case dispatch =>
    obtain ⟨hwait, hdrained⟩ := dispatch_wait ch hat hmodel hpc
    refine .other (by rw [hpc]; rfl) (by simp [hpc]) (by simp [hpc]) hwait ?_ ?_
    · rw [hpc]
      exact fun _ h => by cases h
    · exact fun h => absurd h hdrained
  case drainRequest => exact .request hpc rfl
  case waitRunning =>
    by_cases hrun : s.running = true
    · exact .waits (by rw [hpc]; rfl) (by simp only [hrun, if_true]; rfl)
    · have hstop : s.running = false := by simpa using hrun
      refine .stopped hpc hstop (s.ctx.oldTasks.getD []) ?_
      simp only [hstop, Bool.false_eq_true, if_false]
  case waitResponse =>
    by_cases hyes : ch.response = true
    · exact .answered hpc hyes (by simp only [hyes, if_true])
    · refine .waits (by rw [hpc]; rfl) ?_
      simp only [hyes, Bool.false_eq_true, if_false]
      rfl
  case drainAck => exact .acked hpc _ rfl rfl
  -- the handlers before and behind the wait, and the report
  case report | send => exact .of_same hpc rfl (by simp) rfl (fun _ => rfl) rfl rfl
  case plan | undo | reclaim =>
    first | unfold reloadDoPlan | unfold undoStep buildFailed | unfold reclaimStep
    dsimp only
    repeat' split
    all_goals first
      | exact .of_same hpc rfl (by simp) rfl (fun _ => rfl) rfl rfl
      | exact .of_same hpc rfl (by simp) rfl (fun h => by cases h) rfl rfl

/-! ### The main thread beside the wait -/

/-- The main thread has told the reload thread to stop. -/
def MainPc.stopping : MainPc → Bool
  | .joinReload | .stopOutput | .joinOutput | .destroy | .done => true
  | _ => false

theorem mainHandle_same (s : State) :
    (mainHandle s).reload = s.reload ∧ (mainHandle s).reloadMbox = s.reloadMbox ∧
      (mainHandle s).running = s.running ∧
      ((mainHandle s).phase = s.phase ∨ (mainHandle s).phase = .idle) := by
  unfold mainHandle mainHandleSurvivors mainHandleNewTasks mainHandleReclaimed
  split
  all_goals try split
  all_goals first
    | exact ⟨rfl, rfl, rfl, Or.inl rfl⟩
    | exact ⟨rfl, rfl, rfl, Or.inr rfl⟩

/-- The main thread has told the output thread to stop. -/
def MainPc.outputStopped : MainPc → Bool
  | .joinOutput | .destroy | .done => true
  | _ => false

/-- What the main thread does beside a wait; `exited` is the state of the output thread. -/
structure BesideWait (s s' : State) (exited : Bool) : Prop where
  reload : s'.reload = s.reload
  drained : s'.toCore.Drained → s.toCore.Drained
  running : s'.running = s.running ∨ s'.running = false ∧ s'.main.stopping = true
  stopping : s.main.stopping = true → s'.main.stopping = true
  outputStopped : s.main.outputStopped = true ∨ s.main = .stopOutput →
    s'.main.outputStopped = true
  ended : s'.main.ended = true → s.main.ended = true ∨ exited = true

theorem BesideWait.of_loop {exited : Bool} (hreload : s'.reload = s.reload)
    (hdrained : s'.toCore.Drained → s.toCore.Drained) (hrun : s'.running = s.running)
    (hloop : s.main.stopping = false) (hloop' : s'.main.ended = false) :
    BesideWait s s' exited where
  reload := hreload
  drained := hdrained
  running := Or.inl hrun
  stopping := by
    rw [hloop]
    nofun
  outputStopped := by
    intro h
    cases hpc : s.main <;> rw [hpc] at h hloop <;> simp_all [MainPc.stopping, MainPc.outputStopped]
  ended := by
    rw [hloop']
    nofun

/-- What a step of the main thread does to the wait for the drain. -/
theorem mainStep_wait {ch : MainChoice} (hs : mainStep s ch = some s') :
    BesideWait s s' ch.outputExited := by
  cases mainStep_moves hs with
  | goes pc hgoes =>
    cases hgoes with
    | joins hpc =>
      refine ⟨rfl, id, Or.inl rfl, fun _ => rfl, ?_, ?_⟩
      · rw [hpc]
        rintro (h | h) <;> cases h
      · nofun
    | stops hpc =>
      refine ⟨rfl, id, Or.inl rfl, fun _ => rfl, fun _ => rfl, ?_⟩
      nofun
    | joinsOutput hpc hexited =>
      exact ⟨rfl, id, Or.inl rfl, fun _ => rfl, fun _ => rfl, fun _ => Or.inr hexited⟩
    | ends hpc =>
      exact ⟨rfl, id, Or.inl rfl, fun _ => rfl, fun _ => rfl,
        fun _ => Or.inl (by rw [hpc]; rfl)⟩
    | _ hpc => exact .of_loop rfl id rfl (by rw [hpc]; rfl) rfl
  | polls _ _ hpc | takes hpc | starts hpc => exact .of_loop rfl id rfl (by rw [hpc]; rfl) rfl
  | handles hpc =>
    obtain ⟨hreload, hmbox, hrun, hphase⟩ := mainHandle_same s
    refine .of_loop hreload ?_ hrun (by rw [hpc]; rfl) ?_
    · rintro ⟨hphase', hmbox', hpc'⟩
      rcases hphase with hphase | hphase
      · exact ⟨hphase ▸ hphase', hmbox ▸ hmbox', hreload ▸ hpc'⟩
      · rw [hphase] at hphase'
        cases hphase'
    · have hloop := mainHandle_joined s
      cases hmain : (mainHandle s).main <;> rw [hmain] at hloop <;> first | rfl | cases hloop
  | sends _ hpc | sendsPlan hpc =>
    refine .of_loop rfl ?_ rfl (by rw [hpc]; rfl) rfl
    rintro ⟨-, hmbox, -⟩
    cases hmbox
  | stopsReload hpc =>
    refine ⟨rfl, id, Or.inr ⟨rfl, rfl⟩, fun _ => rfl, ?_, ?_⟩
    · rw [hpc]
      rintro (h | h) <;> cases h
    · nofun
  | destroys t rest hpc =>
    exact ⟨rfl, id, Or.inl rfl, id, fun h => h.resolve_right (by simp [hpc]),
      fun _ => Or.inl (by rw [hpc]; rfl)⟩

theorem handle_idle (hat : st.At s.main s.toCore) (hm : s.main = .handle) :
    s.reload.holds = false ∧ s.reloadMbox = false := by
  rw [hm] at hat
  rcases hat.of_handle with rfl | rfl | rfl
  all_goals exact ⟨hat.1.holds_eq, hat.1.reloadMbox_eq⟩

/-- The execution model never changes. -/
theorem step_executionModel {a : Act} (h : Ordered s) (hs : step s a = some s') :
    s'.mgr.executionModel = s.mgr.executionModel := by
  by_cases hend : s.main.ended = true
  · obtain ⟨-, -, ⟨-, hmgr⟩ | ⟨t, rest, -, hmgr, -⟩⟩ := ended_effect hs hend (h.exited hend)
    all_goals rw [hmgr]
  · have hend' : s.main.ended = false := by simpa using hend
    obtain ⟨⟨st, hat⟩, hist⟩ := h.inv hend'
    cases a with
    | main c =>
      cases mainStep_effect hat hist hs hend' with
      | quiet _ _ _ hmgr | polled _ _ _ _ _ _ _ hmgr | started _ _ _ _ hmgr => rw [hmgr]
      | survivors _ _ _ _ _ _ hbefore _ _ _ _ hmgr => rw [hmgr, hbefore]
      | committed _ _ _ _ _ _ _ hbefore _ _ _ _ _ hmgr => rw [hmgr, hbefore]; rfl
      | planFailed _ _ _ _ _ _ _ _ hmgr | completed _ _ _ _ _ _ _ _ hmgr => rw [hmgr]
      | buildFailed _ _ _ _ _ _ hbefore _ _ _ hmgr => rw [hmgr, hbefore]
    | reload c => rw [(reloadStep_mainSame hs).mgr]
    | signal | quit => cases hs; rfl

/-! ### The old tasks -/

variable {r : Record}

theorem reloadStep_before {ch : ReloadChoice} (hat : st.At s.main s.toCore)
    (hs : reloadStep s ch = some s') (hr : s.current = some r) :
    ∃ r', s'.current = some r' ∧ r'.before = r.before := by
  cases reloadStep_effect hat hs with
  | quiet _ _ hcur => exact ⟨r, hcur.trans hr, rfl⟩
  | planned r' config hr' _ _ _ hcur | created r' new hr' _ _ _ hcur =>
    obtain rfl := some.inj (hr.symm.trans hr')
    exact ⟨_, hcur, rfl⟩
  | aborted r' new hr' _ _ _ hcur | destroyed r' old hr' _ _ hcur =>
    obtain rfl := some.inj (hr.symm.trans hr')
    exact ⟨_, hcur, rfl⟩

/-- Before the drain is over nothing is destroyed. -/
theorem ReclaimData.destroyed_nil {tasks : List Task} {p : Place} {main : MainPc} {c : Core}
    (hctl : Ctl p (.send .awaitingReclaim) .awaitingNewTasks .awaitingReclaim main c)
    (hdata : ReclaimData r tasks c p) (hdrained : ¬c.Drained) : r.destroyed = [] := by
  cases p with
  | mainSend | request => exact hdata.2
  | report | mainHandle =>
    refine absurd ⟨hctl.phase_eq, hctl.reloadMbox_eq, ?_⟩ hdrained
    have hholds : c.reload.holds = false := hctl.holds_eq
    cases hpc : c.reload <;> rw [hpc] at hholds <;> first | rfl | cases hholds
  | reload =>
    have hwait : c.reload.beforeDrain = true := by
      by_contra hne
      exact hdrained ⟨hctl.phase_eq, hctl.reloadMbox_eq, by simpa using hne⟩
    unfold ReclaimData at hdata
    cases hpc : c.reload with
    | dispatch | drainRequest | waitRunning => simp only [hpc] at hdata; exact hdata.2
    | waitResponse => simp only [hpc] at hdata; exact hdata.2
    | _ =>
      rw [hpc] at hwait
      cases hwait

/-- Until the drain is over no old task is destroyed. -/
theorem old_not_destroyed (hat : st.At s.main s.toCore) (h : Hist s) (hcur : s.current = some r)
    (hdrained : ¬s.toCore.Drained) {t : CaptureTask} (ht : t ∈ captureTasks r.before.tasks) :
    t ∉ destroyedIn s.trace := by
  have hgone : t ∉ r.destroyed := by
    cases st with
    | idle =>
      obtain ⟨-, -, -, -, -, -, hnone⟩ := hat
      rw [hcur] at hnone
      cases hnone
    | plan p =>
      obtain ⟨-, r', hcur', -, -, hde, -⟩ := hat
      obtain rfl := some.inj (hcur.symm.trans hcur')
      rw [hde]
      exact not_mem_nil
    | build p =>
      obtain ⟨-, r', config, hcur', -, -, -, hdata⟩ := hat
      obtain rfl := some.inj (hcur.symm.trans hcur')
      exact fun hmem => h.created_not_old hcur (hdata.destroyed_subperm.subset hmem) ht
    | reclaim p =>
      obtain ⟨hctl, r', config, tasks, errors, hcur', -, -, -, -, -, hdata⟩ := hat
      obtain rfl := some.inj (hcur.symm.trans hcur')
      rw [hdata.destroyed_nil hctl hdrained]
      exact not_mem_nil
  obtain ⟨cr, de, hcr, hde, hperm, -⟩ := hcur ▸ h.balance
  have hnodup := h.nodup
  rw [hcr] at hnodup
  have hold := hperm.nodup_iff.mp (nodup_append.mp hnodup).1
  rw [hde]
  intro hmem
  rcases mem_append.mp hmem with hmem | hmem
  · exact (nodup_append.mp hold).2.2 t hmem t ht rfl
  · exact hgone hmem

end Reload

end CloudProbe.Worker
