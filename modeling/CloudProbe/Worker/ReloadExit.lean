import CloudProbe.Worker.ReloadOrder

/-!
# Who holds the capture tasks when the reload thread is stopped

`task_manager_destroy` destroys the capture tasks of the task list. The reload thread frees nothing
but a parsed configuration when it leaves its loop, so a capture task that only its context or an
unread report points to (`Core.held`) is lost.

* **Settled** (`Core.Settled`): they name no capture task that the task list does not have. This is
  exactly what makes the books balance (`balanced_iff_settled`).
* **The end** (`step_released`): once the reload thread has returned, every step keeps the balance,
  in both directions.
-/

namespace CloudProbe.Worker

open CloudProbe.Lib List

namespace Reload

/-! ### Held tasks -/

/-- The task list that a report carries.
Source: `task.c` `reload_msg_t` -/
def Msg.reportedTasks : Msg → List Task
  | .rptSurvivors tasks => tasks
  | .rptNewTasks _ tasks _ => tasks
  | .rptError (some tasks) => tasks
  | _ => []

/-- The tasks that the context of the reload thread or an unread report points to.
Source: `task.c` `reload_runtime_ctx_t`, `main_mbox` -/
def Core.held (c : Core) : List Task :=
  c.ctx.currentTasks.getD [] ++ if c.mainMbox then c.reloadTx.reportedTasks else []

/-- Every capture task that is held is in the task list. -/
def Core.Settled (c : Core) : Prop := ∀ t ∈ c.held, t.task ∈ captureTasks c.mgr.tasks

instance (c : Core) : Decidable c.Settled :=
  inferInstanceAs (Decidable (∀ t ∈ c.held, t.task ∈ captureTasks c.mgr.tasks))

/-- The capture tasks created are those destroyed and those in the task list. -/
def State.Balanced (s : State) : Prop :=
  (createdIn s.trace).Perm (destroyedIn s.trace ++ captureTasks s.mgr.tasks)

variable {st : Stage} {s s' : State} {r : Record} {config : Config}

/-- A task survives once. -/
theorem nodup_survivingTasks {old : List Task} (hold : (captureTasks old).Nodup) (config : Config) :
    (captureTasks (survivingTasks old config.tasks)).Nodup := by
  have hkeys : config.tasks.Pairwise fun a b => ∀ fp, a.fingerprint = some fp →
      ∀ fp', b.fingerprint = some fp' → fp ≠ fp' := pairwise_filterMap.mp config.unique
  rw [captureTasks, List.Nodup, pairwise_map, survivingTasks, pairwise_filterMap]
  refine hkeys.imp ?_
  intro a b hne x hx y hy heq
  obtain ⟨hxmem, hxkey, hxsome⟩ := findEntry_some hx
  obtain ⟨hymem, hykey, -⟩ := findEntry_some hy
  obtain rfl : x = y := inj_on_of_nodup_map hold hxmem hymem heq
  obtain ⟨fp, hfp⟩ := Option.isSome_iff_exists.mp hxsome
  exact hne fp (hxkey.symm.trans hfp) fp (hykey.symm.trans hfp) rfl

theorem balanced_iff_of_current (h : Hist s) (hcur : s.current = some r) :
    s.Balanced ↔
      (captureTasks r.before.tasks ++ r.created).Perm
        (r.destroyed ++ captureTasks s.mgr.tasks) := by
  obtain ⟨cr, de, hcr, hde, hperm, -⟩ := hcur ▸ h.balance
  have hcreated : (createdIn s.trace).Perm
      (de ++ (captureTasks r.before.tasks ++ r.created)) := by
    rw [hcr, ← append_assoc]
    exact hperm.append_right r.created
  rw [State.Balanced, hde, append_assoc]
  constructor
  · intro hb
    exact (perm_append_left_iff de).mp (hcreated.symm.trans hb)
  · intro hb
    exact hcreated.trans ((perm_append_left_iff de).mpr hb)

theorem perm_survivingTasks {old : List Task} (hold : (captureTasks old).Nodup) (config : Config) :
    (captureTasks old).Perm (captureTasks (survivingTasks old config.tasks)) ↔
      ∀ t ∈ old, t.task ∈ captureTasks (survivingTasks old config.tasks) := by
  rw [perm_ext_iff_of_nodup hold (nodup_survivingTasks hold config)]
  constructor
  · intro hiff t ht
    exact (hiff t.task).mp (mem_map_of_mem ht)
  · intro hall c
    constructor
    · intro hc
      obtain ⟨t, ht, rfl⟩ := mem_map.mp hc
      exact hall t ht
    · intro hc
      obtain ⟨t, ht, rfl⟩ := mem_map.mp hc
      exact mem_map_of_mem (mem_of_mem_survivingTasks ht).1

variable {p : Place}

/-- During a plan nothing is held. -/
theorem settled_of_plan (hat : (Stage.plan p).At s.main s.toCore) (hm : s.main.inCycle = false)
    (hholds : s.reload.holds = false) : s.toCore.Settled := by
  obtain ⟨hctl, r, -, hmgr, -, -, hdata⟩ := hat
  intro t ht
  have hmbox := hctl.mainMbox_eq
  rw [Core.held, mem_append] at ht
  cases p with
  | mainSend | request =>
    rw [hdata.2.1, hmbox] at ht
    simp [Ctx.empty] at ht
  | reload =>
    rw [hctl.holds_eq] at hholds
    cases hholds
  | mainHandle =>
    have hhandle : s.main = .handle := hctl.main_at
    rw [hhandle] at hm
    cases hm
  | report =>
    rcases hdata with ⟨hmsg, hctx, -⟩ | ⟨config, -, -, hmsg, hctx⟩
    · rw [hctx, hmsg] at ht
      simp [Ctx.empty, Msg.reportedTasks] at ht
    · rw [hctx, hmsg, hmbox] at ht
      rw [hmgr]
      rcases ht with ht | ht
      · exact mem_map_of_mem ht
      · exact mem_map_of_mem (mem_of_mem_survivingTasks ht).1

/-- The books while a build is on its way or reported. -/
theorem balanced_iff_of_build (hat : (Stage.build p).At s.main s.toCore) (h : Hist s)
    (hm : s.main.inCycle = false) (hholds : s.reload.holds = false) :
    s.Balanced ↔ s.toCore.Settled := by
  obtain ⟨hctl, r, config, hcur, -, -, hmgr, hdata⟩ := hat
  have hnodup := h.nodup_before hcur
  have hold : (captureTasks r.before.tasks).Nodup := (nodup_append.mp hnodup).1
  have hlive : s.mgr.tasks = survivingTasks r.before.tasks config.tasks := by rw [hmgr]
  have hmbox := hctl.mainMbox_eq
  -- what the reload has created was destroyed again: only the old tasks count
  have hundone (hperm : r.created.Perm r.destroyed) :
      s.Balanced ↔ ∀ t ∈ r.before.tasks, t.task ∈ captureTasks s.mgr.tasks := by
    rw [balanced_iff_of_current h hcur, hlive, ← perm_survivingTasks hold config]
    constructor
    · intro hb
      apply (perm_append_right_iff r.created).mp
      exact hb.trans (perm_append_comm.trans (hperm.symm.append_left _))
    · intro hb
      exact (hb.append_right _).trans (perm_append_comm.trans (hperm.append_right _))
  cases p with
  | mainSend | request =>
    obtain ⟨-, hctx, hcr, hde⟩ := hdata
    rw [hundone (by rw [hcr, hde]), Core.Settled, Core.held, hctx, hmbox]
    simp
  | reload =>
    rw [hctl.holds_eq] at hholds
    cases hholds
  | mainHandle =>
    have hhandle : s.main = .handle := hctl.main_at
    rw [hhandle] at hm
    cases hm
  | report =>
    rcases hdata with ⟨hmsg, hctx, hperm⟩ | ⟨tasks, errors, hmsg, hctx, hde, hbuilt⟩
    · rw [hundone hperm, Core.Settled, Core.held, hctx, hmsg, hmbox]
      simp [Ctx.empty, Msg.reportedTasks]
    · have hheld : s.toCore.held = r.before.tasks ++ tasks := by
        rw [Core.held, hctx, hmsg, hmbox]
        rfl
      obtain ⟨-, -, -, -, -, hkeys⟩ := hcur ▸ h.balance
      have hexchange := hbuilt.perm config.unique hkeys
      rw [Core.Settled, hheld, forall_mem_append]
      constructor
      · intro hb
        rw [balanced_iff_of_current h hcur, hde, nil_append] at hb
        refine ⟨fun t ht => hb.subset ?_, fun t ht => hb.subset ?_⟩
        · exact mem_append_left _ (mem_map_of_mem ht)
        · exact hexchange.subset (mem_append_left _ (mem_map_of_mem ht))
      · rintro ⟨hkept, hnew⟩
        have hcr : r.created = [] := by
          apply eq_nil_iff_forall_not_mem.mpr
          intro c hc
          have hmem : c ∈ captureTasks tasks := by
            rw [hbuilt.created_eq] at hc
            exact map_subset _ (filter_subset_self _) hc
          obtain ⟨t, ht, rfl⟩ := mem_map.mp hmem
          have hsurvives := hnew t ht
          rw [hlive] at hsurvives
          obtain ⟨o, ho, heq⟩ := mem_map.mp hsurvives
          refine h.created_not_old hcur hc ?_
          rw [← heq]
          exact mem_map_of_mem (mem_of_mem_survivingTasks ho).1
        exact (hundone (by rw [hcr, hde])).mpr hkept

/-- The books while a reclaim is on its way or reported. -/
theorem balanced_iff_of_reclaim (hat : (Stage.reclaim p).At s.main s.toCore) (h : Hist s)
    (hm : s.main.inCycle = false) (hholds : s.reload.holds = false) :
    s.Balanced ↔ s.toCore.Settled := by
  obtain ⟨hctl, r, config, tasks, errors, hcur, -, -, hbuilt, hmgr, -, hdata⟩ := hat
  have hnodup := h.nodup_before hcur
  have hlive : s.mgr.tasks = tasks := by
    rw [hmgr]
    rfl
  obtain ⟨-, -, -, -, -, hkeys⟩ := hcur ▸ h.balance
  have hexchange := hbuilt.perm config.unique hkeys
  have hmbox := hctl.mainMbox_eq
  cases p with
  | mainSend | request =>
    obtain ⟨hctx, hde⟩ := hdata
    have hheld : s.toCore.held = r.before.tasks := by
      rw [Core.held, hctx, hmbox]
      exact append_nil _
    rw [Core.Settled, hheld, balanced_iff_of_current h hcur, hde, nil_append, hlive]
    constructor
    · intro hb t ht
      exact hb.subset (mem_append_left _ (mem_map_of_mem ht))
    · intro hkept
      have hnone : r.before.tasks.filter (unusedIn tasks) = [] := by
        apply eq_nil_iff_forall_not_mem.mpr
        intro t ht
        have hdisjoint := (nodup_append.mp (hexchange.nodup_iff.mpr hnodup)).2.2
        exact hdisjoint t.task (hkept t (mem_of_mem_filter ht)) t.task
          (mem_map_of_mem ht) rfl
      rw [hnone] at hexchange
      simpa [captureTasks] using hexchange.symm
  | reload =>
    rw [hctl.holds_eq] at hholds
    cases hholds
  | mainHandle =>
    have hhandle : s.main = .handle := hctl.main_at
    rw [hhandle] at hm
    cases hm
  | report =>
    obtain ⟨hmsg, hctx, hde⟩ := hdata
    have hheld : s.toCore.held = [] := by
      rw [Core.held, hctx, hmsg, hmbox]
      rfl
    rw [Core.Settled, hheld, balanced_iff_of_current h hcur, hde, hlive]
    constructor
    · exact fun _ t ht => absurd ht not_mem_nil
    · intro _
      exact hexchange.symm.trans perm_append_comm

/-- **The books balance exactly when nothing is held**: outside of cycles, the capture tasks created
are those destroyed and those in the list exactly when the reload thread holds no other. -/
theorem balanced_iff_settled (hat : st.At s.main s.toCore) (h : Hist s)
    (hm : s.main.inCycle = false) (hholds : s.reload.holds = false) :
    s.Balanced ↔ s.toCore.Settled := by
  cases st with
  | idle =>
    obtain ⟨-, -, -, hmbox, -, hctx, hcur⟩ := hat
    have hbal := h.balance
    rw [hcur] at hbal
    refine ⟨fun _ t ht => ?_, fun _ => hbal.1⟩
    rw [Core.held, hctx, hmbox] at ht
    cases ht
  | plan p =>
    refine ⟨fun _ => settled_of_plan hat hm hholds, fun _ => ?_⟩
    obtain ⟨-, r, hcur, hmgr, hcr, hde, -⟩ := hat
    rw [balanced_iff_of_current h hcur, hcr, hde, hmgr, append_nil, nil_append]
  | build p => exact balanced_iff_of_build hat h hm hholds
  | reclaim p => exact balanced_iff_of_reclaim hat h hm hholds

/-! ### The end of main -/

/-- The reload thread has returned, and main waits for it or has done so. -/
def State.Released (s : State) : Prop :=
  s.reload = .exited ∧ (s.main = .joinReload ∨ s.main.joined = true)

/-- **At the end the balance does not change**, whether it is even or not. -/
theorem step_released {a : Act} (hs : step s a = some s') (h : s.Released) :
    s'.Released ∧ (s'.Balanced ↔ s.Balanced) := by
  obtain ⟨hexited, hmain⟩ := h
  cases a with
  | main c =>
    have hjoined : s'.main.joined = true := mainStep_joined_of_end hs hmain
    rcases mainStep_end hs hjoined with ⟨-, -, rfl⟩ | ⟨-, rfl⟩ | ⟨-, rfl⟩ | ⟨-, -, rfl⟩ |
      ⟨t, rest, -, htasks, rfl⟩
    · exact ⟨⟨hexited, .inr rfl⟩, Iff.rfl⟩
    · exact ⟨⟨hexited, .inr rfl⟩, Iff.rfl⟩
    · exact ⟨⟨hexited, .inr rfl⟩, Iff.rfl⟩
    · exact ⟨⟨hexited, .inr rfl⟩, Iff.rfl⟩
    · refine ⟨⟨hexited, .inr hjoined⟩, ?_⟩
      have hcreated : createdIn (s.trace ++ [.destroyed t.task]) = createdIn s.trace := by
        rw [createdIn_append]
        exact append_nil _
      have hgone : destroyedIn (s.trace ++ [.destroyed t.task]) ++ captureTasks rest =
          destroyedIn s.trace ++ captureTasks s.mgr.tasks := by
        rw [destroyedIn_append, htasks, append_assoc]
        rfl
      rw [State.Balanced, State.Balanced, ← hgone, ← hcreated]
  | reload c =>
    rw [step, reloadStep, hexited] at hs
    cases hs
  | signal | quit =>
    cases hs
    exact ⟨⟨hexited, hmain⟩, Iff.rfl⟩

/-- No capture task is created twice. -/
theorem nodup_created {create : ℕ → Except String Unit} {acts : List Act}
    (h : exec step (initial config create) acts = some s) : (createdIn s.trace).Nodup := by
  refine (exec_invariant (P := fun s => Ordered s ∧ (createdIn s.trace).Nodup) ?_
    ⟨ordered_initial config create, (inv_initial config create rfl).2.nodup⟩ h).2
  rintro s a s' ⟨hord, hnodup⟩ hs
  have hord' := ordered_step s a s' hord hs
  refine ⟨hord', ?_⟩
  by_cases hend : s.main.ended = true
  · obtain ⟨-, -, ⟨htrace, -⟩ | ⟨t, rest, -, -, htrace⟩⟩ := ended_effect hs hend (hord.exited hend)
    · rwa [htrace]
    · rw [htrace, createdIn_append]
      exact (append_nil (createdIn s.trace)).symm ▸ hnodup
  · by_cases hend' : s'.main.ended = true
    · -- main comes to `task_manager_destroy`, and the trace stays as it is
      have htrace : s'.trace = s.trace := by
        cases a with
        | main c =>
          have hjoined : s'.main.joined = true := by
            cases hpc : s'.main <;> rw [hpc] at hend' <;> first | rfl | cases hend'
          rcases mainStep_end hs hjoined with ⟨-, -, rfl⟩ | ⟨-, rfl⟩ | ⟨-, rfl⟩ | ⟨-, -, rfl⟩ |
            ⟨t, rest, hpc, -⟩
          · rfl
          · rfl
          · rfl
          · rfl
          · exact absurd (by rw [hpc]; rfl) hend
        | reload c =>
          rw [(reloadStep_mainSame hs).main] at hend'
          exact absurd hend' hend
        | signal | quit =>
          cases hs
          rfl
      rwa [htrace]
    · exact (hord'.inv (by simpa using hend')).2.nodup

/-- At the end the task list is empty. -/
theorem tasks_of_done {create : ℕ → Except String Unit} {acts : List Act}
    (h : exec step (initial config create) acts = some s) (hdone : s.main = .done) :
    s.mgr.tasks = [] := by
  refine exec_invariant (P := fun s => s.main = .done → s.mgr.tasks = []) ?_ ?_ h hdone
  · intro s a s' ih hs hdone
    cases a with
    | main c =>
      rcases mainStep_end hs (by rw [hdone]; rfl) with ⟨-, -, rfl⟩ | ⟨-, rfl⟩ | ⟨-, rfl⟩ |
        ⟨-, htasks, rfl⟩ | ⟨t, rest, hpc, -, rfl⟩
      · cases hdone
      · cases hdone
      · cases hdone
      · exact htasks
      · rw [show s.main = .done from hdone] at hpc
        cases hpc
    | reload c =>
      have hsame := reloadStep_mainSame hs
      rw [hsame.main] at hdone
      rw [hsame.mgr]
      exact ih hdone
    | signal | quit =>
      cases hs
      exact ih hdone
  · nofun

end Reload

end CloudProbe.Worker
