import CloudProbe.Worker.ReloadInvariant

/-!
# The history of the reload protocol

The capture tasks created are those destroyed and those in the task list; during a reload, up to
what the reload itself created and destroyed (`Balance`). `Record.Ok` is what is true of a reload
when it is over, `Effect` what a step of the reload thread can add to the history. The stage
invariant and the history invariant `Hist` hold in every state reached before
`task_manager_destroy`.
-/

namespace CloudProbe.Worker

open CloudProbe.Lib List Option

namespace Reload

def Record.Ok (r : Record) : Outcome → Prop
  | .planError after => after = r.before ∧ r.created = [] ∧ r.destroyed = []
  | .buildError after => after = r.before ∧ r.created.Perm r.destroyed
  | .completed after =>
    ∃ config, r.config = some config ∧ validateFingerprints config.tasks = true ∧
      after = r.before.commit config after.tasks after.errors ∧
      Built config.tasks r.before.tasks r.created config.tasks.length after.tasks
        after.errors ∧
      r.destroyed = captureTasks (r.before.tasks.filter (unusedIn after.tasks))

def Balance (trace : List Event) (mgr : Mgr) : Option Record → Prop
  | none =>
    (createdIn trace).Perm (destroyedIn trace ++ captureTasks mgr.tasks) ∧
      (keys Task.fingerprint mgr.tasks).Nodup
  | some r =>
    ∃ created destroyed, createdIn trace = created ++ r.created ∧
      destroyedIn trace = destroyed ++ r.destroyed ∧
      created.Perm (destroyed ++ captureTasks r.before.tasks) ∧
      (keys Task.fingerprint r.before.tasks).Nodup

structure Hist (s : State) : Prop where
  nodup : (createdIn s.trace).Nodup
  fresh : ∀ t ∈ createdIn s.trace, t.id < s.nextId
  balance : Balance s.trace s.mgr s.current
  past : ∀ e ∈ s.past, e.1.Ok e.2 ∧ e.1.created.Nodup ∧ e.1.destroyed.Nodup ∧
    (keys Task.fingerprint e.1.before.tasks).Nodup
  expected : .unexpected ∉ s.trace
  raised : s.raised = true → s.signal = true ∨ s.main = .sendPlan
  polls : ∀ rest, s.main = .poll rest → ∀ t ∈ rest, t ∈ s.mgr.tasks

/-! ### What the reload thread adds -/

inductive Effect (s s' : State) : Prop where
  | quiet (trace : s'.trace = s.trace) (nextId : s'.nextId = s.nextId)
      (current : s'.current = s.current)
  | planned (r : Record) (config : Config) (cur : s.current = some r) (none : r.created = [])
      (trace : s'.trace = s.trace) (nextId : s'.nextId = s.nextId)
      (current : s'.current = some { r with config := some config })
  | created (r : Record) (new : CaptureTask) (cur : s.current = some r) (id : new.id = s.nextId)
      (trace : s'.trace = s.trace ++ [.created new]) (nextId : s'.nextId = s.nextId + 1)
      (current : s'.current = some { r with created := r.created ++ [new] })
  | aborted (r : Record) (new : CaptureTask) (cur : s.current = some r) (id : new.id = s.nextId)
      (trace : s'.trace = s.trace ++ [.created new, .destroyed new])
      (nextId : s'.nextId = s.nextId + 1)
      (current : s'.current =
        some { r with created := r.created ++ [new], destroyed := r.destroyed ++ [new] })
  | destroyed (r : Record) (old : CaptureTask) (cur : s.current = some r)
      (trace : s'.trace = s.trace ++ [.destroyed old]) (nextId : s'.nextId = s.nextId)
      (current : s'.current = some { r with destroyed := r.destroyed ++ [old] })

/-- A step of the reload thread leaves the manager, the finished reloads and the main thread
alone. -/
structure MainSame (s s' : State) : Prop where
  mgr : s'.mgr = s.mgr
  past : s'.past = s.past
  main : s'.main = s.main
  signal : s'.signal = s.signal
  raised : s'.raised = s.raised
  running : s'.running = s.running
  phase : s'.phase = s.phase
  mainTx : s'.mainTx = s.mainTx

variable {new : CaptureTask}

theorem buildEntry_id {id i : ℕ} {config : List TaskConfig} {old : List Task} {entry : TaskConfig}
    {outcome : EntryOutcome} :
    (∀ t, buildEntry id config old i entry outcome = .task (some new) t → new.id = id) ∧
      (buildEntry id config old i entry outcome = .abort (some new) → new.id = id) := by
  unfold buildEntry
  constructor
  · intro t h
    repeat' split at h
    all_goals cases h
    rfl
  · intro h
    repeat' split at h
    all_goals cases h
    rfl

variable {st : Stage} {s s' : State} {ch : ReloadChoice}

/-- The reload thread changes nothing of main's. -/
theorem reloadStep_frame (hs : reloadStep s ch = some s') :
    MainSame s s' ∧ (s'.reloadTx = s.reloadTx ∨ ∃ m after, s.reload = .report m after) := by
  unfold reloadStep at hs
  cases hpc : s.reload <;> simp only [hpc, some.injEq, reduceCtorEq] at hs
  case build i rest tasks errors =>
    unfold buildStep at hs
    repeat' split at hs
    all_goals cases hs
    all_goals exact ⟨⟨rfl, rfl, rfl, rfl, rfl, rfl, rfl, rfl⟩, .inl rfl⟩
  case report m after =>
    subst hs
    exact ⟨⟨rfl, rfl, rfl, rfl, rfl, rfl, rfl, rfl⟩, .inr ⟨m, after, rfl⟩⟩
  all_goals
    subst hs
    first
      | unfold reloadDispatch buildFailed
      | unfold reloadDoPlan
      | unfold undoStep buildFailed
      | unfold reclaimStep
      | skip
    dsimp only
    repeat' split
    all_goals exact ⟨⟨rfl, rfl, rfl, rfl, rfl, rfl, rfl, rfl⟩, .inl rfl⟩

theorem reloadStep_mainSame (hs : reloadStep s ch = some s') : MainSame s s' :=
  (reloadStep_frame hs).1

theorem current_of_holds (h : st.At s.main s.toCore) (hc : s.reload.holds = true) :
    ∃ r, s.current = some r := by
  rcases h.of_holds hc with rfl | rfl | rfl
  · obtain ⟨-, r, hcur, -⟩ := h
    exact ⟨r, hcur⟩
  · obtain ⟨-, r, config, hcur, -⟩ := h
    exact ⟨r, hcur⟩
  · obtain ⟨-, r, config, tasks, errors, hcur, -⟩ := h
    exact ⟨r, hcur⟩

/-- What the start of a handler adds to the record. -/
theorem dispatch_effect (h : st.At s.main s.toCore) (hpc : s.reload = .dispatch) :
    Effect s (reloadDispatch s ch) := by
  have hmsg : (∃ l, s.mainTx = .reqPlan l) ∨ (∃ l, s.mainTx = .reqBuild l) ∨
      ∃ k e l, s.mainTx = .reqReclaim k e l := by
    rcases h.of_holds (by rw [hpc]; rfl) with rfl | rfl | rfl
    · obtain ⟨-, r, -, -, -, -, hdata⟩ := h
      simp only [PlanData, hpc] at hdata
      exact Or.inl ⟨_, hdata.1⟩
    · obtain ⟨-, r, config, -, -, -, -, hdata⟩ := h
      simp only [BuildData, hpc] at hdata
      exact Or.inr (Or.inl ⟨_, hdata.1⟩)
    · obtain ⟨-, r, config, tasks, errors, -, -, -, -, -, htx, -⟩ := h
      exact Or.inr (Or.inr ⟨_, _, _, htx⟩)
  unfold reloadDispatch
  rcases hmsg with ⟨l, htx⟩ | ⟨l, htx⟩ | ⟨k, e, l, htx⟩ <;> rw [htx]
  · exact .quiet rfl rfl rfl
  all_goals
    simp only
    split_ifs <;> exact .quiet rfl rfl rfl

theorem current_of_plan (h : st.At s.main s.toCore) (hpc : s.reload = .plan) :
    ∃ r, s.current = some r ∧ r.created = [] := by
  rcases h.of_holds (by rw [hpc]; rfl) with rfl | rfl | rfl
  · obtain ⟨-, r, hcur, -, hcr, -⟩ := h
    exact ⟨r, hcur, hcr⟩
  · obtain ⟨-, r, config, -, -, -, -, hdata⟩ := h
    simp only [BuildData, hpc] at hdata
  · obtain ⟨-, r, config, tasks, errors, -, -, -, -, -, -, hdata⟩ := h
    simp only [ReclaimData, hpc] at hdata

/-- What a step of the reload thread adds to the record of the reload. -/
theorem reloadStep_effect (h : st.At s.main s.toCore) (hs : reloadStep s ch = some s') :
    Effect s s' := by
  unfold reloadStep at hs
  cases hpc : s.reload <;> simp only [hpc, some.injEq, reduceCtorEq] at hs
  case dispatch =>
    subst hs
    exact dispatch_effect h hpc
  case plan =>
    subst hs
    obtain ⟨r, hcur, hcr⟩ := current_of_plan h hpc
    unfold reloadDoPlan
    simp only
    split
    · exact .quiet rfl rfl rfl
    · rename_i config _
      split
      · split
        · exact .quiet rfl rfl rfl
        · exact .planned r config hcur hcr rfl rfl (by simp only [hcur, map_some])
      · exact .quiet rfl rfl rfl
  case build i rest tasks errors =>
    obtain ⟨r, hcur⟩ := current_of_holds h (by rw [hpc]; rfl)
    unfold buildStep at hs
    repeat' split at hs
    all_goals cases hs
    all_goals try exact .quiet rfl rfl rfl
    · rename_i hres
      exact .created r _ hcur (buildEntry_id.1 _ hres) rfl rfl
        (by simp only [State.logCreated, hcur, map_some])
    · rename_i hres
      exact .aborted r _ hcur (buildEntry_id.2 hres)
        (by simp [State.logCreated, State.logDestroyed]) rfl
        (by simp only [State.logCreated, State.logDestroyed, hcur, map_some])
  case undo rest | reclaim rest =>
    obtain ⟨r, hcur⟩ := current_of_holds h (by rw [hpc]; rfl)
    subst hs
    cases rest with
    | nil => exact .quiet rfl rfl rfl
    | cons t rest =>
      first | unfold undoStep | unfold reclaimStep
      simp only
      split_ifs
      all_goals first
        | exact .quiet rfl rfl rfl
        | exact .destroyed r t.task hcur rfl rfl (by simp only [State.logDestroyed, hcur, map_some])
  all_goals
    subst hs
    exact .quiet rfl rfl rfl

theorem Hist.new_not_mem (h : Hist s) (hid : new.id = s.nextId) :
    new ∉ createdIn s.trace := by
  intro hmem
  have := h.fresh new hmem
  omega

theorem Hist.create (h : Hist s) (hid : new.id = s.nextId) :
    (createdIn s.trace ++ [new]).Nodup ∧
      ∀ t ∈ createdIn s.trace ++ [new], t.id < s.nextId + 1 := by
  constructor
  · refine nodup_append.mpr ⟨h.nodup, nodup_singleton new, ?_⟩
    intro a ha b hb hab
    rw [mem_singleton.mp hb] at hab
    exact h.new_not_mem hid (hab ▸ ha)
  · intro t ht
    rcases mem_append.mp ht with ht | ht
    · exact Nat.lt_succ_of_lt (h.fresh t ht)
    · rw [mem_singleton.mp ht, hid]
      exact Nat.lt_succ_self _

theorem Balance.grow {trace : List Event} {mgr : Mgr} {r r' : Record}
    (h : Balance trace mgr (some r)) (more : List Event) (mgr' : Mgr)
    (hbefore : r'.before = r.before) (hcreated : r'.created = r.created ++ createdIn more)
    (hdestroyed : r'.destroyed = r.destroyed ++ destroyedIn more) :
    Balance (trace ++ more) mgr' (some r') := by
  obtain ⟨cr, de, hcr, hde, hperm, hkeys⟩ := h
  refine ⟨cr, de, ?_, ?_, ?_, ?_⟩
  · rw [createdIn_append, hcr, hcreated, append_assoc]
  · rw [destroyedIn_append, hde, hdestroyed, append_assoc]
  · rw [hbefore]
    exact hperm
  · rw [hbefore]
    exact hkeys

/-- A step adds events, and the new capture tasks have new identities. -/
theorem Hist.extend (h : Hist s) (hsame : MainSame s s') {more : List Event}
    (htrace : s'.trace = s.trace ++ more) (hexp : .unexpected ∉ more)
    (hnew : createdIn more = [] ∧ s'.nextId = s.nextId ∨
      ∃ new, createdIn more = [new] ∧ new.id = s.nextId ∧ s'.nextId = s.nextId + 1)
    (hbal : Balance s'.trace s'.mgr s'.current) : Hist s' := by
  have hcreated : (createdIn s'.trace).Nodup ∧ ∀ t ∈ createdIn s'.trace, t.id < s'.nextId := by
    rw [htrace, createdIn_append]
    rcases hnew with ⟨hnil, hnext⟩ | ⟨new, hone, hid, hnext⟩
    · rw [hnil, hnext, append_nil]
      exact ⟨h.nodup, h.fresh⟩
    · rw [hone, hnext]
      exact h.create hid
  refine ⟨hcreated.1, hcreated.2, hbal, ?_, ?_, ?_, ?_⟩
  · rw [hsame.past]
    exact h.past
  · rw [htrace, mem_append, not_or]
    exact ⟨h.expected, hexp⟩
  · rw [hsame.raised, hsame.signal, hsame.main]
    exact h.raised
  · rw [hsame.main, hsame.mgr]
    exact h.polls

/-- **The step lemma** for the reload thread. -/
theorem hist_reloadStep (hat : st.At s.main s.toCore) (h : Hist s)
    (hs : reloadStep s ch = some s') : Hist s' := by
  have hsame := reloadStep_mainSame hs
  have hbal := h.balance
  cases reloadStep_effect hat hs with
  | quiet htrace hnext hcur =>
    refine h.extend hsame (htrace.trans (append_nil _).symm) nofun (.inl ⟨rfl, hnext⟩) ?_
    rw [htrace, hsame.mgr, hcur]
    exact hbal
  | planned r config hr _ htrace hnext hcur =>
    rw [hr] at hbal
    refine h.extend hsame (htrace.trans (append_nil _).symm) nofun (.inl ⟨rfl, hnext⟩) ?_
    rw [htrace, hcur]
    exact hbal
  | created r new hr hid htrace hnext hcur =>
    rw [hr] at hbal
    refine h.extend hsame htrace (by simp) (.inr ⟨new, rfl, hid, hnext⟩) ?_
    rw [hcur, htrace]
    exact hbal.grow _ _ rfl rfl (append_nil _).symm
  | aborted r new hr hid htrace hnext hcur =>
    rw [hr] at hbal
    refine h.extend hsame htrace (by simp) (.inr ⟨new, rfl, hid, hnext⟩) ?_
    rw [hcur, htrace]
    exact hbal.grow _ _ rfl rfl rfl
  | destroyed r old hr htrace hnext hcur =>
    rw [hr] at hbal
    refine h.extend hsame htrace (by simp) (.inl ⟨rfl, hnext⟩) ?_
    rw [hcur, htrace]
    exact hbal.grow _ _ rfl (append_nil _).symm rfl

/-! ### What the main thread adds -/

theorem Hist.congr (h : Hist s) (hm : s.main ≠ .sendPlan) (htrace : s'.trace = s.trace)
    (hnext : s'.nextId = s.nextId) (hbal : Balance s.trace s'.mgr s'.current)
    (hpast : s'.past = s.past) (hraised : s'.raised = s.raised) (hsignal : s'.signal = s.signal)
    (hpolls : ∀ rest, s'.main = .poll rest → ∀ t ∈ rest, t ∈ s'.mgr.tasks) : Hist s' where
  nodup := by rw [htrace]; exact h.nodup
  fresh := by rw [htrace, hnext]; exact h.fresh
  balance := by rw [htrace]; exact hbal
  past := by rw [hpast]; exact h.past
  expected := by rw [htrace]; exact h.expected
  raised := by
    rw [hraised, hsignal]
    intro hr
    rcases h.raised hr with hsig | hsend
    · exact Or.inl hsig
    · exact absurd hsend hm
  polls := hpolls

/-- A reload that ends is put on record. -/
theorem Hist.finish (h : Hist s) (hm : s.main ≠ .sendPlan) {r : Record} (hr : s.current = some r)
    {outcome : Mgr → Outcome} {mgr : Mgr} (hok : r.Ok (outcome mgr))
    (hperm : (captureTasks r.before.tasks ++ r.created).Perm
      (r.destroyed ++ captureTasks mgr.tasks))
    (hkeys : (keys Task.fingerprint r.before.tasks).Nodup →
      (keys Task.fingerprint mgr.tasks).Nodup) :
    Hist { s.finish outcome mgr with phase := .idle, main := .tryStart } := by
  obtain ⟨cr, de, hcr, hde, hperm', hkeys'⟩ := hr ▸ h.balance
  have hall : (createdIn s.trace).Perm (destroyedIn s.trace ++ captureTasks mgr.tasks) := by
    rw [hcr, hde, append_assoc]
    refine (hperm'.append_right _).trans ?_
    rw [append_assoc]
    exact hperm.append_left de
  have hcreated : r.created.Nodup := by
    have := h.nodup
    rw [hcr] at this
    exact (nodup_append.mp this).2.1
  have hdestroyed : r.destroyed.Nodup := by
    have := (nodup_append.mp (hall.nodup_iff.mp h.nodup)).1
    rw [hde] at this
    exact (nodup_append.mp this).2.1
  refine ⟨h.nodup, h.fresh, ⟨hall, hkeys hkeys'⟩, ?_, h.expected, ?_, ?_⟩
  · intro e he
    simp only [State.finish, hr, map_some, toList_some] at he
    rcases mem_append.mp he with he | he
    · exact h.past e he
    · rw [mem_singleton.mp he]
      exact ⟨hok, hcreated, hdestroyed, hkeys'⟩
  · intro hraised
    rcases h.raised hraised with hsig | hsend
    · exact Or.inl hsig
    · exact absurd hsend hm
  · nofun

/-- Handling a report keeps the history. -/
theorem hist_handle (hat : st.At .handle s.toCore) (h : Hist s) (hm : s.main = .handle) :
    Hist (mainHandle s) := by
  have hne : s.main ≠ .sendPlan := by simp [hm]
  -- During a reload the balance is about the record, not about the manager.
  have hstands {r : Record} (hr : s.current = some r) (mgr : Mgr) :
      Balance s.trace mgr s.current := by
    have hbal := h.balance
    rw [hr] at hbal ⊢
    exact hbal
  have hhandled := (handle_cases hat).1
  generalize mainHandle s = s' at hhandled ⊢
  cases hhandled with
  | planFailed r hr hcr hde hmgr =>
    refine h.finish hne hr ⟨hmgr, hcr, hde⟩ ?_ ?_
    · rw [hcr, hde, hmgr, append_nil]
      exact List.Perm.refl _
    · rw [hmgr]
      exact id
  | survivors r config _ hr | committed r config tasks errors _ hr =>
    exact h.congr hne rfl rfl (hstands hr _) rfl rfl rfl nofun
  | buildFailed r config hr _ hperm =>
    exact h.finish hne hr ⟨rfl, hperm⟩ (perm_append_comm.trans (hperm.append_right _)) id
  | completed r config tasks errors _ hr hcfg hval hbuilt hde hmgr =>
    obtain ⟨-, -, -, -, -, hkeys⟩ := hr ▸ h.balance
    have htasks : s.mgr.tasks = tasks := by rw [hmgr]; rfl
    refine h.finish hne hr ⟨config, hcfg, hval, ?_, ?_, ?_⟩ ?_ ?_
    · rw [hmgr]
      rfl
    · rw [hmgr]
      exact hbuilt
    · rw [htasks]
      exact hde
    · rw [hde, htasks]
      exact (perm_append_comm.trans (hbuilt.perm config.unique hkeys)).symm
    · rw [htasks]
      exact fun _ => hbuilt.keys_nodup config.unique

/-- A poll keeps the history. -/
theorem Hist.polled (h : Hist s) {t : Task} {rest : List Task} (hpc : s.main = .poll (t :: rest))
    (packets : List Arrival) :
    Hist { s with main := .poll rest, trace := s.trace ++ [.polled t.task packets] } := by
  have hcreated : createdIn (s.trace ++ [.polled t.task packets]) = createdIn s.trace := by
    rw [createdIn_append]
    exact append_nil _
  have hdestroyed : destroyedIn (s.trace ++ [.polled t.task packets]) = destroyedIn s.trace := by
    rw [destroyedIn_append]
    exact append_nil _
  refine ⟨?_, ?_, ?_, h.past, ?_, ?_, ?_⟩
  · rw [hcreated]
    exact h.nodup
  · rw [hcreated]
    exact h.fresh
  · have hbal := h.balance
    show Balance (s.trace ++ [.polled t.task packets]) s.mgr s.current
    unfold Balance at hbal ⊢
    rw [hcreated, hdestroyed]
    exact hbal
  · simpa using h.expected
  · intro hr
    rcases h.raised hr with hsig | hsend
    · exact Or.inl hsig
    · simp [hpc] at hsend
  · intro rest' hpoll t' ht'
    cases hpoll
    exact h.polls (t :: rest) hpc t' (mem_cons_of_mem t ht')

/-- **The step lemma** for the main thread. -/
theorem hist_mainStep {ch : MainChoice} (hat : st.At s.main s.toCore) (h : Hist s)
    (hs : mainStep s ch = some s') (hend : s'.main.ended = false) : Hist s' := by
  cases mainStep_moves hs with
  | goes pc hgoes =>
    refine h.congr ?_ rfl rfl h.balance rfl rfl rfl ?_
    · intro hpc
      have := (hgoes.outside hend).1
      rw [hpc] at this
      cases this
    · intro rest hpoll t ht
      obtain rfl : pc = .poll rest := hpoll
      cases hgoes
      exact ht
  | polls t rest hpc => exact h.polled hpc ch.packets
  | takes hpc | sends _ hpc | stopsReload hpc =>
    exact h.congr (by simp [hpc]) rfl rfl h.balance rfl rfl rfl
      nofun
  | handles hpc =>
    rw [hpc] at hat
    exact hist_handle hat h hpc
  | starts hpc hidle hsignal =>
    obtain rfl := hat.of_idle (by rw [hpc]; rfl) hidle
    obtain ⟨-, -, -, -, -, -, hcur⟩ := hat
    have hbal := h.balance
    rw [hcur] at hbal
    refine ⟨h.nodup, h.fresh, ⟨_, _, (append_nil _).symm, (append_nil _).symm, hbal.1,
      hbal.2⟩, h.past, h.expected, fun _ => Or.inr rfl, ?_⟩
    nofun
  | sendsPlan hpc =>
    refine ⟨h.nodup, h.fresh, h.balance, h.past, h.expected, ?_, ?_⟩
    · nofun
    · nofun
  | destroys t rest hpc htasks =>
    rw [show s.main.ended = true by rw [hpc]; rfl] at hend
    cases hend

/-- What a step of the main thread does to the task list and the history, before
`task_manager_destroy`. -/
inductive MainEffect (s s' : State) (packets : List Arrival) : Prop where
  | quiet (trace : s'.trace = s.trace) (past : s'.past = s.past) (current : s'.current = s.current)
      (mgr : s'.mgr = s.mgr)
  | polled (t : Task) (rest : List Task) (main : s.main = .poll (t :: rest))
      (mem : t ∈ s.mgr.tasks)
      (trace : s'.trace = s.trace ++ [.polled t.task packets]) (past : s'.past = s.past)
      (current : s'.current = s.current) (mgr : s'.mgr = s.mgr)
  | started (cur : s.current = none) (trace : s'.trace = s.trace) (past : s'.past = s.past)
      (current : s'.current = some ⟨s.mgr, none, [], []⟩) (mgr : s'.mgr = s.mgr)
  | survivors (r : Record) (config : Config) (main : s.main = .handle) (cur : s.current = some r)
      (cfg : r.config = some config) (created : r.created = []) (before : s.mgr = r.before)
      (phase : s.phase = .awaitingSurvivors)
      (trace : s'.trace = s.trace) (past : s'.past = s.past) (current : s'.current = s.current)
      (mgr : s'.mgr = { r.before with tasks := survivingTasks r.before.tasks config.tasks })
  | committed (r : Record) (config : Config) (tasks : List Task) (errors : List TaskError)
      (main : s.main = .handle) (cur : s.current = some r) (cfg : r.config = some config)
      (before : s.mgr = { r.before with tasks := survivingTasks r.before.tasks config.tasks })
      (built : Built config.tasks r.before.tasks r.created config.tasks.length tasks errors)
      (phase : s.phase = .awaitingNewTasks)
      (trace : s'.trace = s.trace) (past : s'.past = s.past) (current : s'.current = s.current)
      (mgr : s'.mgr = r.before.commit config tasks errors)
  | planFailed (r : Record) (main : s.main = .handle) (cur : s.current = some r)
      (created : r.created = [])
      (trace : s'.trace = s.trace) (past : s'.past = s.past ++ [(r, .planError s.mgr)])
      (current : s'.current = none) (before : s.mgr = r.before) (mgr : s'.mgr = s.mgr)
  | buildFailed (r : Record) (config : Config) (main : s.main = .handle) (cur : s.current = some r)
      (cfg : r.config = some config) (perm : r.created.Perm r.destroyed)
      (before : s.mgr = { r.before with tasks := survivingTasks r.before.tasks config.tasks })
      (trace : s'.trace = s.trace) (past : s'.past = s.past ++ [(r, .buildError r.before)])
      (current : s'.current = none) (mgr : s'.mgr = r.before)
  | completed (r : Record) (main : s.main = .handle) (cur : s.current = some r)
      (ok : r.Ok (.completed s.mgr))
      (phase : s.phase = .awaitingReclaim) (trace : s'.trace = s.trace)
      (past : s'.past = s.past ++ [(r, .completed s.mgr)]) (current : s'.current = none)
      (mgr : s'.mgr = s.mgr)

/-- What handling a report does, case by case. -/
theorem handle_effect (hat : st.At .handle s.toCore) (hm : s.main = .handle)
    (packets : List Arrival) :
    MainEffect s (mainHandle s) packets := by
  have hhandled := (handle_cases hat).1
  generalize mainHandle s = s' at hhandled ⊢
  have hpast {r : Record} (hr : s.current = some r) (outcome : Mgr → Outcome) (mgr : Mgr) :
      (s.finish outcome mgr).past = s.past ++ [(r, outcome mgr)] := by
    simp only [State.finish, hr, map_some, toList_some]
  cases hhandled with
  | planFailed r hr hcr _ hmgr => exact .planFailed r hm hr hcr rfl (hpast hr _ _) rfl hmgr rfl
  | survivors r config hphase hr hcfg hcr hmgr =>
    exact .survivors r config hm hr hcfg hcr hmgr hphase rfl rfl rfl (by rw [hmgr])
  | buildFailed r config hr hcfg hperm hmgr =>
    exact .buildFailed r config hm hr hcfg hperm hmgr rfl (hpast hr _ _) rfl rfl
  | committed r config tasks errors hphase hr hcfg hmgr hbuilt =>
    exact .committed r config tasks errors hm hr hcfg hmgr hbuilt hphase rfl rfl rfl rfl
  | completed r config tasks errors hphase hr hcfg hval hbuilt hde hmgr =>
    have htasks : s.mgr.tasks = tasks := by rw [hmgr]; rfl
    refine .completed r hm hr ⟨config, hcfg, hval, ?_, ?_, ?_⟩ hphase rfl (hpast hr _ _) rfl rfl
    · rw [hmgr]
      rfl
    · rw [hmgr]
      exact hbuilt
    · rw [htasks]
      exact hde

/-- Every step of main has one of the effects. -/
theorem mainStep_effect {ch : MainChoice} (hat : st.At s.main s.toCore) (h : Hist s)
    (hs : mainStep s ch = some s') (hend : s.main.ended = false) :
    MainEffect s s' ch.packets := by
  cases mainStep_moves hs with
  | polls t rest hpc =>
    exact .polled t rest hpc (h.polls _ hpc t mem_cons_self) rfl rfl rfl rfl
  | handles hpc =>
    rw [hpc] at hat
    exact handle_effect hat hpc ch.packets
  | starts hpc hidle hsignal =>
    obtain rfl := hat.of_idle (by rw [hpc]; rfl) hidle
    obtain ⟨-, -, -, -, -, -, hcur⟩ := hat
    exact .started hcur rfl rfl rfl rfl
  | destroys t rest hpc htasks =>
    rw [hpc] at hend
    cases hend
  | _ => exact .quiet rfl rfl rfl rfl

/-! ### Runs -/

/-- The invariant of the protocol, as long as main has not come to `task_manager_destroy`. -/
def Inv (s : State) : Prop :=
  s.main.ended = false → (∃ st : Stage, st.At s.main s.toCore) ∧ Hist s

theorem ended_step {a : Act} (hs : step s a = some s') (hend : s.main.ended = true) :
    s'.main.ended = true := by
  cases a with
  | main c =>
    cases mainStep_moves hs with
    | goes pc hgoes =>
      cases hgoes with
      | joinsOutput | ends => rfl
      | _ hpc =>
        rw [hpc] at hend
        cases hend
    | destroys => exact hend
    | polls _ _ hpc | sends _ hpc | _ hpc =>
      rw [hpc] at hend
      cases hend
  | reload c =>
    rw [(reloadStep_mainSame hs).main]
    exact hend
  | signal | quit =>
    cases hs
    exact hend

/-- **The step lemma** for both threads. -/
theorem inv_step (s : State) (a : Act) (s' : State) (h : Inv s) (hs : step s a = some s') :
    Inv s' := by
  intro hend
  have hend' : s.main.ended = false := by
    by_contra hne
    rw [ended_step hs (by simpa using hne)] at hend
    cases hend
  obtain ⟨⟨st, hat⟩, hist⟩ := h hend'
  cases a with
  | main c => exact ⟨at_mainStep hat hs hend, hist_mainStep hat hist hs hend⟩
  | reload c => exact ⟨at_reloadStep hat hs, hist_reloadStep hat hist hs⟩
  | signal =>
    cases hs
    exact ⟨⟨st, hat⟩, hist.nodup, hist.fresh, hist.balance, hist.past, hist.expected,
      fun _ => Or.inl rfl, hist.polls⟩
  | quit =>
    cases hs
    exact ⟨⟨st, hat⟩, hist.nodup, hist.fresh, hist.balance, hist.past, hist.expected,
      hist.raised, hist.polls⟩

theorem createdIn_map_created (l : List CaptureTask) :
    createdIn (l.map .created) = l ∧ destroyedIn (l.map .created) = [] ∧
      Event.unexpected ∉ l.map .created := by
  refine ⟨?_, ?_, by simp⟩
  · unfold createdIn
    rw [filterMap_map]
    exact filterMap_some
  · unfold destroyedIn
    rw [filterMap_map]
    exact filterMap_eq_nil_iff.mpr fun _ _ => rfl

/-- The invariant holds at the start. -/
theorem inv_initial (config : Config) (create : ℕ → Except String Unit) :
    Inv (initial config create) := by
  intro _
  obtain ⟨hid, hsorted, hsub⟩ := taskManagerNew_spec config.tasks create 0 config.tasks
  obtain ⟨hcreated, hdestroyed, hexp⟩ :=
    createdIn_map_created (captureTasks (taskManagerNew config.tasks create 0 config.tasks).1)
  refine ⟨⟨.idle, rfl, rfl, rfl, rfl, rfl, rfl, rfl⟩, ?_⟩
  refine ⟨?_, ?_, ⟨?_, ?_⟩, ?_, hexp, ?_, ?_⟩
  · show (createdIn (List.map _ _)).Nodup
    rw [hcreated]
    unfold captureTasks
    rw [List.Nodup, pairwise_map]
    refine hsorted.imp ?_
    intro t t' hlt heq
    rw [heq] at hlt
    omega
  · intro t ht
    change t ∈ createdIn (List.map _ _) at ht
    rw [hcreated] at ht
    obtain ⟨w, hw, rfl⟩ := mem_map.mp ht
    have := (hid w hw).2
    show w.task.id < config.tasks.length
    omega
  · show (createdIn (List.map _ _)).Perm (destroyedIn (List.map _ _) ++ _)
    rw [hcreated, hdestroyed]
    exact List.Perm.refl _
  · exact config.unique.sublist hsub
  · nofun
  · nofun
  · nofun

theorem inv_exec {config : Config} {create : ℕ → Except String Unit} {acts : List Act}
    (h : exec step (initial config create) acts = some s) : Inv s :=
  exec_invariant inv_step (inv_initial config create) h

/-! ### Shutdown -/

/-- The main thread has joined the reload thread. -/
def MainPc.joined : MainPc → Bool
  | .stopOutput | .joinOutput | .destroy | .done => true
  | _ => false

theorem mainHandle_joined (s : State) : (mainHandle s).main.joined = false := by
  unfold mainHandle mainHandleSurvivors mainHandleNewTasks mainHandleReclaimed
  repeat' split
  all_goals rfl

/-- The steps of main behind the join. -/
theorem mainStep_end {c : MainChoice} (hs : mainStep s c = some s')
    (hjoined : s'.main.joined = true) :
    (s.main = .joinReload ∧ s.reload = .exited ∧ s' = { s with main := .stopOutput }) ∨
      (s.main = .stopOutput ∧ s' = { s with main := .joinOutput }) ∨
      (s.main = .joinOutput ∧ s' = { s with main := .destroy }) ∨
      (s.main = .destroy ∧ s.mgr.tasks = [] ∧ s' = { s with main := .done }) ∨
      ∃ t rest, s.main = .destroy ∧ s.mgr.tasks = t :: rest ∧
        s' = { s with
          mgr := { s.mgr with tasks := rest }, trace := s.trace ++ [.destroyed t.task] } := by
  cases mainStep_moves hs with
  | goes pc hgoes =>
    cases hgoes with
    | joins hpc hexited => exact .inl ⟨hpc, hexited, rfl⟩
    | stops hpc => exact .inr (.inl ⟨hpc, rfl⟩)
    | joinsOutput hpc => exact .inr (.inr (.inl ⟨hpc, rfl⟩))
    | ends hpc htasks => exact .inr (.inr (.inr (.inl ⟨hpc, htasks, rfl⟩)))
    | _ => cases hjoined
  | destroys t rest hpc htasks => exact .inr (.inr (.inr (.inr ⟨t, rest, hpc, htasks, rfl⟩)))
  | handles =>
    rw [mainHandle_joined] at hjoined
    cases hjoined
  | _ => cases hjoined

theorem mainStep_joined_of_end {c : MainChoice} (hs : mainStep s c = some s')
    (hmain : s.main = .joinReload ∨ s.main.joined = true) : s'.main.joined = true := by
  have hpc' : ∀ {pc : MainPc}, s.main = pc → pc = .joinReload ∨ pc.joined = true := by
    rintro pc rfl
    exact hmain
  cases mainStep_moves hs with
  | goes pc hgoes =>
    cases hgoes with
    | joins | stops | joinsOutput | ends => rfl
    | _ hpc => rcases hpc' hpc with h | h <;> cases h
  | destroys t rest hpc => exact hmain.resolve_left (by simp [hpc])
  | polls _ _ hpc | sends _ hpc | _ hpc => rcases hpc' hpc with h | h <;> cases h

theorem joined_step (s : State) (a : Act) (s' : State)
    (h : s.main.joined = true → s.reload = .exited) (hs : step s a = some s') :
    s'.main.joined = true → s'.reload = .exited := by
  intro hjoined
  cases a with
  | main c =>
    rcases mainStep_end hs hjoined with ⟨-, hexited, rfl⟩ | ⟨hpc, rfl⟩ | ⟨hpc, rfl⟩ |
      ⟨hpc, -, rfl⟩ | ⟨t, rest, hpc, -, rfl⟩
    · exact hexited
    all_goals exact h (by rw [hpc]; rfl)
  | reload c =>
    rw [(reloadStep_mainSame hs).main] at hjoined
    rw [step, reloadStep, h hjoined] at hs
    cases hs
  | signal | quit =>
    cases hs
    exact h hjoined

/-- At the end only the tasks of the list are destroyed. -/
theorem ended_effect {a : Act} (hs : step s a = some s') (hend : s.main.ended = true)
    (hexited : s.reload = .exited) :
    s'.past = s.past ∧ s'.current = s.current ∧
      ((s'.trace = s.trace ∧ s'.mgr = s.mgr) ∨
        ∃ t rest, s.mgr.tasks = t :: rest ∧ s'.mgr = { s.mgr with tasks := rest } ∧
          s'.trace = s.trace ++ [.destroyed t.task]) := by
  cases a with
  | main c =>
    have hjoined : s.main.joined = true := by
      cases hpc : s.main <;> rw [hpc] at hend <;> first | rfl | cases hend
    rcases mainStep_end hs (mainStep_joined_of_end hs (.inr hjoined)) with ⟨-, -, rfl⟩ |
      ⟨-, rfl⟩ | ⟨-, rfl⟩ | ⟨-, -, rfl⟩ | ⟨t, rest, -, htasks, rfl⟩
    · exact ⟨rfl, rfl, .inl ⟨rfl, rfl⟩⟩
    · exact ⟨rfl, rfl, .inl ⟨rfl, rfl⟩⟩
    · exact ⟨rfl, rfl, .inl ⟨rfl, rfl⟩⟩
    · exact ⟨rfl, rfl, .inl ⟨rfl, rfl⟩⟩
    · exact ⟨rfl, rfl, .inr ⟨t, rest, htasks, rfl, rfl⟩⟩
  | reload c =>
    rw [step, reloadStep, hexited] at hs
    cases hs
  | signal | quit =>
    cases hs
    exact ⟨rfl, rfl, Or.inl ⟨rfl, rfl⟩⟩

end Reload

end CloudProbe.Worker
