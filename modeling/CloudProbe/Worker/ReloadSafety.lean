import Mathlib.Data.List.Perm.Subperm
import CloudProbe.Worker.ReloadHistory

/-!
# Safety of the reload protocol

In every state reached before `task_manager_destroy`, one message is in flight at most, no message
is overwritten while the other side uses it, no unexpected message was seen, the task list changes
only where the protocol says so, no capture task was destroyed twice or is still in the task list,
and no signal was lost (`reload_protocol_safe`).
-/

namespace CloudProbe.Worker

open CloudProbe.Lib List

namespace Reload

/-- The next step of the main thread fills `main_tx_msg`. -/
def State.MainFillsTx (s : State) : Prop :=
  match s.main with
  | .handle =>
    match s.phase, s.reloadTx with
    | .awaitingSurvivors, .rptSurvivors _ => True
    | .awaitingNewTasks, .rptNewTasks _ _ _ => True
    | _, _ => False
  | .tryStart => s.phase = .idle ∧ s.signal = true
  | _ => False

/-- The next step of the reload thread fills `reload_tx_msg`. -/
def State.ReloadFillsTx (s : State) : Prop :=
  match s.reload with
  | .report _ _ => True
  | _ => False

/-- The reload thread has not finished with `main_tx_msg`. -/
def State.ReloadUsesTx (s : State) : Prop := s.reloadMbox = true ∨ s.reload.holds = true

/-- The main thread has not finished with `reload_tx_msg`. -/
def State.MainUsesTx (s : State) : Prop := s.mainMbox = true ∨ s.main = .handle

/-- The main thread has taken a report on which it changes the task list. -/
def State.ChangesTasks (s : State) : Prop :=
  s.main = .handle ∧
    ((s.phase = .awaitingSurvivors ∧ ∃ l, s.reloadTx = .rptSurvivors l) ∨
      (s.phase = .awaitingNewTasks ∧ ∃ k l e, s.reloadTx = .rptNewTasks k l e) ∨
      (s.phase = .awaitingNewTasks ∧ ∃ l, s.reloadTx = .rptError (some l)))

variable {s s' : State} {st : Stage} {a : Act}

/-! ### Messages -/

theorem one_in_flight (h : st.At s.main s.toCore) :
    ¬(s.mainMbox = true ∧ s.reloadMbox = true) := by
  rintro ⟨hmain, hreload⟩
  rcases h.of_mainMbox hmain with rfl | rfl | rfl
  all_goals
    rw [h.1.reloadMbox_eq] at hreload
    cases hreload

/-- Main fills its message only when the reload thread is done with it. -/
theorem main_fills_own (h : st.At s.main s.toCore) (hfill : s.MainFillsTx) :
    ¬s.ReloadUsesTx := by
  unfold State.MainFillsTx at hfill
  rintro (hmbox | hholds)
  · cases hpc : s.main with
    | handle =>
      rw [hpc] at h
      rcases h.of_handle with rfl | rfl | rfl
      all_goals
        rw [h.1.reloadMbox_eq] at hmbox
        cases hmbox
    | tryStart =>
      simp only [hpc] at hfill
      rw [hpc] at h
      obtain rfl := h.of_idle rfl hfill.1
      rw [h.2.2.1] at hmbox
      cases hmbox
    | _ => simp only [hpc] at hfill
  · cases hpc : s.main with
    | handle =>
      rw [hpc] at h
      rcases h.of_handle with rfl | rfl | rfl
      all_goals
        rw [h.1.holds_eq] at hholds
        cases hholds
    | tryStart =>
      simp only [hpc] at hfill
      rw [hpc] at h
      obtain rfl := h.of_idle rfl hfill.1
      rw [h.2.2.2.2.1] at hholds
      cases hholds
    | _ => simp only [hpc] at hfill

theorem reload_fills_own (h : st.At s.main s.toCore) (hfill : s.ReloadFillsTx) :
    ¬s.MainUsesTx := by
  have hholds : s.reload.holds = true := by
    unfold State.ReloadFillsTx at hfill
    cases hpc : s.reload with
    | report m after => rfl
    | _ => simp only [hpc] at hfill
  rintro (hmbox | hmain)
  · rcases h.of_holds hholds with rfl | rfl | rfl
    all_goals
      rw [h.1.mainMbox_eq] at hmbox
      cases hmbox
  · rcases h.of_holds hholds with rfl | rfl | rfl
    all_goals
      have hat := h.1.main_at
      rw [hmain] at hat
      cases hat

/-- Main writes to its own message only. -/
theorem mainStep_tx {ch : MainChoice} (hs : mainStep s ch = some s') :
    (s'.mainTx = s.mainTx ∨ s.MainFillsTx) ∧ s'.reloadTx = s.reloadTx := by
  unfold State.MainFillsTx
  cases mainStep_moves hs with
  | handles hpc =>
    simp only [hpc]
    unfold mainHandle
    cases hphase : s.phase with
    | idle => exact ⟨Or.inl rfl, rfl⟩
    | awaitingSurvivors =>
      cases htx : s.reloadTx with
      | rptSurvivors l => exact ⟨Or.inr trivial, htx⟩
      | _ => exact ⟨Or.inl rfl, htx⟩
    | awaitingNewTasks =>
      cases htx : s.reloadTx with
      | rptNewTasks k l e => exact ⟨Or.inr trivial, htx⟩
      | _ => exact ⟨Or.inl rfl, htx⟩
    | awaitingReclaim =>
      cases htx : s.reloadTx <;> exact ⟨Or.inl rfl, htx⟩
  | starts hpc hidle hsignal =>
    rw [hpc]
    exact ⟨Or.inr ⟨hidle, hsignal⟩, rfl⟩
  | _ => exact ⟨Or.inl rfl, rfl⟩

theorem reloadStep_tx {ch : ReloadChoice} (hs : reloadStep s ch = some s') :
    s'.reloadTx = s.reloadTx ∨ s.ReloadFillsTx := by
  refine (reloadStep_frame hs).2.imp_right ?_
  rintro ⟨m, after, hpc⟩
  rw [State.ReloadFillsTx, hpc]
  trivial

theorem step_tx (h : st.At s.main s.toCore) (hs : step s a = some s') :
    (s'.mainTx = s.mainTx ∨ ¬s.ReloadUsesTx) ∧ (s'.reloadTx = s.reloadTx ∨ ¬s.MainUsesTx) := by
  cases a with
  | main c =>
    obtain ⟨hmain, hreload⟩ := mainStep_tx hs
    exact ⟨hmain.imp_right (main_fills_own h), Or.inl hreload⟩
  | reload c =>
    exact ⟨Or.inl (reloadStep_mainSame hs).mainTx, (reloadStep_tx hs).imp_right
      (reload_fills_own h)⟩
  | signal | quit =>
    cases hs
    exact ⟨Or.inl rfl, Or.inl rfl⟩

/-! ### The task list -/

/-- The task list changes only at the places where it may. -/
theorem step_tasks (hend : s.main.ended = false) (hs : step s a = some s')
    (hne : s'.mgr.tasks ≠ s.mgr.tasks) : s.ChangesTasks := by
  cases a with
  | main c =>
    cases mainStep_moves hs with
    | handles hpc =>
      refine ⟨hpc, ?_⟩
      unfold mainHandle at hne
      cases hphase : s.phase <;> cases htx : s.reloadTx <;> simp only [hphase, htx] at hne
      case awaitingSurvivors.rptSurvivors l => exact Or.inl ⟨rfl, l, rfl⟩
      case awaitingNewTasks.rptNewTasks k l e => exact Or.inr (Or.inl ⟨rfl, k, l, e, rfl⟩)
      case awaitingNewTasks.rptError restore =>
        rcases restore with _ | l
        · exact absurd rfl hne
        · exact Or.inr (Or.inr ⟨rfl, l, rfl⟩)
      all_goals exact absurd rfl hne
    | destroys t rest hpc =>
      rw [hpc] at hend
      cases hend
    | _ => exact absurd rfl hne
  | reload c =>
    rw [(reloadStep_mainSame hs).mgr] at hne
    exact absurd rfl hne
  | signal | quit =>
    cases hs
    exact absurd rfl hne

/-- A build destroys only what it has created. -/
theorem BuildData.destroyed_subperm {r : Record} {config : Config} {c : Core} {p : Place}
    (hdata : BuildData r config c p) : r.destroyed.Subperm r.created := by
  have hnil (hde : r.destroyed = []) : r.destroyed.Subperm r.created := by
    rw [hde]
    exact nil_subperm
  have hreport {m : Msg} {ctx : Ctx} (hrep : BuildReport r config m ctx) :
      r.destroyed.Subperm r.created := by
    rcases hrep with ⟨-, -, hperm⟩ | ⟨tasks, errors, -, -, hde, -⟩
    · exact hperm.symm.subperm
    · exact hnil hde
  cases p with
  | mainSend | request => exact hnil hdata.2.2.2
  | report | mainHandle => exact hreport hdata
  | reload =>
    unfold BuildData at hdata
    cases hpc : c.reload with
    | dispatch =>
      simp only [hpc] at hdata
      exact hnil hdata.2.2.2
    | build i rest tasks errors =>
      simp only [hpc] at hdata
      exact hnil hdata.2.2.2.1
    | undo rest =>
      simp only [hpc] at hdata
      exact (sublist_append_left _ _).subperm.trans hdata.2.symm.subperm
    | report m after | send after =>
      simp only [hpc] at hdata
      exact hreport hdata
    | _ => simp only [hpc] at hdata

/-- The tasks destroyed and the live ones are some of those created, each once. -/
theorem accounted (hat : st.At s.main s.toCore) (h : Hist s) :
    ∃ live, captureTasks s.mgr.tasks ⊆ live ∧
      (destroyedIn s.trace ++ live).Subperm (createdIn s.trace) := by
  cases st with
  | idle =>
    obtain ⟨-, -, -, -, -, -, hcur⟩ := hat
    obtain ⟨hperm, -⟩ := hcur ▸ h.balance
    exact ⟨_, List.Subset.refl _, hperm.symm.subperm⟩
  | plan p =>
    obtain ⟨-, r, hcur, hmgr, hcr, hde, -⟩ := hat
    obtain ⟨cr, de, hcr', hde', hperm, -⟩ := hcur ▸ h.balance
    refine ⟨captureTasks r.before.tasks, by rw [hmgr]; exact List.Subset.refl _, ?_⟩
    rw [hcr', hde', hcr, hde, append_nil, append_nil]
    exact hperm.symm.subperm
  | build p =>
    obtain ⟨-, r, config, hcur, -, -, hmgr, hdata⟩ := hat
    obtain ⟨cr, de, hcr', hde', hperm, -⟩ := hcur ▸ h.balance
    have hsub := hdata.destroyed_subperm
    refine ⟨captureTasks r.before.tasks, ?_, ?_⟩
    · intro t ht
      obtain ⟨w, hw, rfl⟩ := mem_map.mp ht
      rw [hmgr] at hw
      exact mem_map_of_mem (mem_of_mem_survivingTasks hw).1
    · rw [hcr', hde', append_assoc]
      have hswap : (de ++ (r.destroyed ++ captureTasks r.before.tasks)).Perm
          (de ++ captureTasks r.before.tasks ++ r.destroyed) := by
        rw [append_assoc]
        exact perm_append_comm.append_left de
      exact hswap.subperm.trans (hperm.symm.subperm.append hsub)
  | reclaim p =>
    obtain ⟨-, r, config, tasks, errors, hcur, -, -, hbuilt, hmgr, -, hdata⟩ := hat
    obtain ⟨cr, de, hcr', hde', hperm, hkeys⟩ := hcur ▸ h.balance
    have hsub : r.destroyed.Subperm
        (captureTasks (r.before.tasks.filter (unusedIn tasks))) := by
      have hnil (hde : r.destroyed = []) : r.destroyed.Subperm
          (captureTasks (r.before.tasks.filter (unusedIn tasks))) := hde ▸ nil_subperm
      have hreport {m : Msg} {ctx : Ctx} (hrep : ReclaimReport r tasks m ctx) :
          r.destroyed.Subperm (captureTasks (r.before.tasks.filter (unusedIn tasks))) := by
        rw [hrep.2.2]
      cases p with
      | mainSend | request => exact hnil hdata.2
      | report | mainHandle => exact hreport hdata
      | reload =>
        unfold ReclaimData at hdata
        cases hpc : s.reload <;> simp only [hpc] at hdata
        case reclaim rest =>
          obtain ⟨-, gone, hgone, hde⟩ := hdata
          rw [hde, hgone, filter_append, captureTasks, captureTasks, map_append]
          exact (sublist_append_left _ _).subperm
        case report | send => exact hreport hdata
        all_goals exact hnil hdata.2
    have htasks : s.mgr.tasks = tasks := by rw [hmgr]; rfl
    refine ⟨captureTasks tasks, by rw [htasks]; exact List.Subset.refl _, ?_⟩
    rw [hcr', hde', append_assoc]
    have hleft : (r.destroyed ++ captureTasks tasks).Subperm
        (captureTasks r.before.tasks ++ r.created) :=
      perm_append_comm.subperm.trans
        (((List.Subperm.refl _).append hsub).trans
          (hbuilt.perm config.unique hkeys).subperm)
    refine ((List.Subperm.refl de).append hleft).trans ?_
    rw [← append_assoc]
    exact (hperm.symm.append_right _).subperm

theorem destroyed_once (hat : st.At s.main s.toCore) (h : Hist s) :
    (destroyedIn s.trace).Nodup ∧ ∀ t ∈ s.mgr.tasks, t.task ∉ destroyedIn s.trace := by
  obtain ⟨live, hlive, hsub⟩ := accounted hat h
  obtain ⟨l, hperm, hsubl⟩ := hsub
  have hnodup : (destroyedIn s.trace ++ live).Nodup := hperm.nodup_iff.mp (h.nodup.sublist hsubl)
  refine ⟨(nodup_append.mp hnodup).1, ?_⟩
  intro t ht hmem
  exact (nodup_append.mp hnodup).2.2 t.task hmem t.task
    (hlive (mem_map_of_mem ht)) rfl

/-! ### The signal -/

theorem step_signal (hs : step s a = some s') (hset : s.signal = true) :
    s'.signal = true ∨ s'.main = .sendPlan := by
  cases a with
  | main c =>
    cases mainStep_moves hs with
    | handles hpc =>
      left
      unfold mainHandle
      cases s.phase <;> simp only <;> try exact hset
      all_goals cases s.reloadTx <;> exact hset
    | starts => exact Or.inr rfl
    | _ => exact Or.inl hset
  | reload c =>
    left
    rw [(reloadStep_mainSame hs).signal]
    exact hset
  | signal =>
    cases hs
    exact Or.inl rfl
  | quit =>
    cases hs
    exact Or.inl hset

/-- **The reload protocol is safe** in every state reached before `task_manager_destroy`: one
message in flight, no side touches a message the other is not done with, no branch for an unexpected
message, no capture task destroyed twice or while in the task list, no signal lost. Source:
`task.c`, comment `Reload Protocol` -/
theorem reload_protocol_safe (config : Config) (create : ℕ → Except String Unit)
    (acts : List Act) (s : State) (hrun : exec step (initial config create) acts = some s)
    (hend : s.main.ended = false) :
    ¬(s.mainMbox = true ∧ s.reloadMbox = true) ∧
      (s.MainFillsTx → ¬s.ReloadUsesTx) ∧ (s.ReloadFillsTx → ¬s.MainUsesTx) ∧
      (∀ a s', step s a = some s' →
        (s'.mainTx = s.mainTx ∨ ¬s.ReloadUsesTx) ∧ (s'.reloadTx = s.reloadTx ∨ ¬s.MainUsesTx)) ∧
      Event.unexpected ∉ s.trace ∧
      (∀ a s', step s a = some s' → s'.mgr.tasks ≠ s.mgr.tasks → s.ChangesTasks) ∧
      (destroyedIn s.trace).Nodup ∧ (∀ t ∈ s.mgr.tasks, t.task ∉ destroyedIn s.trace) ∧
      (s.raised = true → s.signal = true ∨ s.main = .sendPlan) ∧
      (∀ a s', step s a = some s' → s.signal = true → s'.signal = true ∨ s'.main = .sendPlan) := by
  obtain ⟨⟨st, hat⟩, hist⟩ := inv_exec hrun hend
  obtain ⟨honce, hapart⟩ := destroyed_once hat hist
  refine ⟨one_in_flight hat, main_fills_own hat, reload_fills_own hat, ?_, hist.expected, ?_, honce,
    hapart, hist.raised, ?_⟩
  · intro a s' hs
    exact step_tx hat hs
  · intro a s' hs hne
    exact step_tasks hend hs hne
  · intro a s' hs hset
    exact step_signal hs hset

/-- A configuration with one task, and no other file to read. -/
def oneTask : Config where
  tasks := [⟨some "a", .libpcap "" false, [.vxlan "10.0.0.1"]⟩]
  unique := by decide
  executionModel := .rtc
  bufferSizeMb := 0
  bufferSize_lt := zero_bufferSize_lt

/-- A signal, and the steps of both threads until the reload thread has taken the plan request. -/
def untilPlanTaken : List Act :=
  [.signal] ++ List.replicate 6 (.main ⟨[], true, false⟩) ++
    [.main ⟨[], true, false⟩, .reload ⟨none, true, fun _ => true, ⟨.ok (), true⟩, false⟩,
      .reload ⟨none, true, fun _ => true, ⟨.ok (), true⟩, false⟩]

/-- The reload thread has the plan request, and the main thread does not touch it. -/
theorem reload_protocol_safe_plan_taken :
    ∃ s, exec step (initial oneTask fun _ => .ok ()) untilPlanTaken = some s ∧
      s.main.ended = false ∧ s.ReloadUsesTx ∧ ¬s.MainFillsTx ∧ (destroyedIn s.trace).Nodup := by
  refine ⟨_, rfl, rfl, Or.inr rfl, ?_, ?_⟩
  · have h := reload_protocol_safe oneTask (fun _ => .ok ()) untilPlanTaken _ rfl rfl
    exact fun hfill => h.2.1 hfill (Or.inr rfl)
  · exact (reload_protocol_safe oneTask (fun _ => .ok ()) untilPlanTaken _ rfl rfl).2.2.2.2.2.2.1

end Reload

end CloudProbe.Worker
