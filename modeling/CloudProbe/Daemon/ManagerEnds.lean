import CloudProbe.Daemon.WorkerMgr

/-!
# How the operations of the manager end

One case for each way out, with what the outside did for it and the manager it leaves: of a start,
of a reload, of a create with the gate asked before the start, and of an update or a restart of a
dead worker. Everything that is proved about the manager goes through these cases.
-/

namespace CloudProbe.Daemon

open Option

theorem Setup.control_eq (d : Setup) : ∃ path, d.workerCfg.control = .unix path := by
  have hcontrol := (WorkerConfig.validate_eq_ok.mp d.valid).2.1
  cases h : d.workerCfg.control with
  | unix path => exact ⟨path, rfl⟩
  | other name =>
    rw [h] at hcontrol
    cases hcontrol

theorem Setup.updatePolicy_eq (d : Setup) :
    d.workerCfg.updatePolicy = .restart ∨ d.workerCfg.updatePolicy = .reload := by
  have hpolicy := (WorkerConfig.validate_eq_ok.mp d.valid).2.2.2.2
  cases h : d.workerCfg.updatePolicy with
  | restart => exact .inl rfl
  | reload => exact .inr rfl
  | other name =>
    rw [h] at hpolicy
    cases hpolicy

theorem newClient_unix (path : Option String) :
    newClient (ControlConfig.unix path).connectString = .ok ⟨(path.getD "").toList⟩ := by
  unfold newClient ControlConfig.connectString
  rw [cutScheme_unix]
  exact if_pos rfl

theorem Setup.newClient_eq (d : Setup) :
    ∃ client, newClient d.workerCfg.control.connectString = .ok client := by
  obtain ⟨path, hpath⟩ := d.control_eq
  rw [hpath]
  exact ⟨_, newClient_unix path⟩

namespace WorkerManager

section ends

variable (d : Setup) (o : Outside) (res : SyncStrategyResponse)

/-! ## A start -/

/-- The handle of a process just started with the configuration `file`. -/
def freshWorker (pid : ℕ) (file : WorkerFile) : Worker :=
  { cmd := some ⟨pid, true⟩, given := some file }

inductive LaunchEnd (tasks : List TaskConfig) (m : WorkerManager) :
    Option MgrError × WorkerManager → Prop
  | noDir (err : String) (hdir : socketDirError d.workerCfg.control o.host = some err) :
      LaunchEnd tasks m (some (.text err), m)
  | notStarted (err : String) (client : Client) (file : Option WorkerFile)
      (hdir : socketDirError d.workerCfg.control o.host = none)
      (hstart : o.writeConfig = .ok → ∃ e, o.startProcess = .error e)
      (hclient : newClient d.workerCfg.control.connectString = .ok client) :
      LaunchEnd tasks m (some (.text err),
        { m with client := some client, worker := some {}, configFile := file })
  | notLimited (err : String) (client : Client) (pid : ℕ)
      (hdir : socketDirError d.workerCfg.control o.host = none)
      (hwrite : o.writeConfig = .ok) (hstart : o.startProcess = .ok pid)
      (hlimit : ¬ ({} : Worker).LimitsOk o res.cpuLimit)
      (hclient : newClient d.workerCfg.control.connectString = .ok client) :
      LaunchEnd tasks m (some (.text err),
        { m with
          client := some client
          worker := some (freshWorker pid (newWorkerConfig d.workerCfg tasks res)).stop
          current := tasks
          configFile := some (newWorkerConfig d.workerCfg tasks res)
          starts := m.starts + 1 })
  | started (client : Client) (pid : ℕ) (limited : Bool)
      (hdir : socketDirError d.workerCfg.control o.host = none)
      (hwrite : o.writeConfig = .ok) (hstart : o.startProcess = .ok pid)
      (hlimit : ({} : Worker).LimitsOk o res.cpuLimit)
      (hclient : newClient d.workerCfg.control.connectString = .ok client) :
      LaunchEnd tasks m (none,
        { m with
          client := some client
          worker := some { freshWorker pid (newWorkerConfig d.workerCfg tasks res) with
            resLimit := limited }
          current := tasks
          configFile := some (newWorkerConfig d.workerCfg tasks res)
          starts := m.starts + 1 })

/-- The ways a start ends, exhaustively. -/
theorem launch_end (tasks : List TaskConfig) (m : WorkerManager) :
    LaunchEnd d o res tasks m (launch d o res tasks m) := by
  unfold launch
  obtain ⟨client, hclient⟩ := d.newClient_eq
  cases hdir : socketDirError d.workerCfg.control o.host with
  | some err => exact .noDir err hdir
  | none =>
    rw [hclient]
    by_cases hok : o.writeConfig = .ok ∧ ∃ pid, o.startProcess = .ok pid
    · obtain ⟨hwrite, pid, hstart⟩ := hok
      simp only [Worker.start_of_ok hwrite hstart]
      unfold limitWorker
      have hcmd : (freshWorker pid (newWorkerConfig d.workerCfg tasks res)).cmd ≠ none :=
        some_ne_none _
      rcases Worker.updateResLimit_cases o res.cpuLimit hcmd with
        ⟨hlimit, limited, heq⟩ | ⟨hlimit, err, heq⟩
      · rw [freshWorker] at heq
        rw [heq]
        exact .started client pid limited hdir hwrite hstart hlimit hclient
      · rw [freshWorker] at heq
        rw [heq]
        exact .notLimited err client pid hdir hwrite hstart hlimit hclient
    · have hstart : o.writeConfig = .ok → ∃ e, o.startProcess = .error e := by
        intro hwrite
        cases hs : o.startProcess with
        | error e => exact ⟨e, rfl⟩
        | ok pid => exact absurd ⟨hwrite, pid, hs⟩ hok
      unfold Worker.start writeConfig
      cases hwrite : o.writeConfig with
      | ok =>
        obtain ⟨e, he⟩ := hstart hwrite
        simp only [he]
        exact .notStarted _ client _ hdir hstart hclient
      | createFailed e | writeFailed e => exact .notStarted _ client _ hdir hstart hclient

/-! ## A reload -/

inductive ReloadEnd (tasks : List TaskConfig) (w : Worker) (m : WorkerManager) :
    Option MgrError × WorkerManager → Prop
  | notWritten (err : String) (file : Option WorkerFile) (hwrite : o.writeConfig ≠ .ok) :
      ReloadEnd tasks w m (some (.text err), { m with configFile := file })
  | notTaken (err : String) (hwrite : o.writeConfig = .ok)
      (htaken : w.Running → ∃ e, o.reloadCommand = .refused e) :
      ReloadEnd tasks w m (some (.text err),
        { m with worker := some w, configFile := some (newWorkerConfig d.workerCfg tasks res) })
  | unanswered (err : String) (hwrite : o.writeConfig = .ok) (hrunning : w.Running)
      (htaken : ∃ e, o.reloadCommand = .unanswered e) :
      ReloadEnd tasks w m (some (.text err),
        { m with
          worker := some { w with given := some (newWorkerConfig d.workerCfg tasks res) }
          configFile := some (newWorkerConfig d.workerCfg tasks res) })
  | notLimited (err : String) (hwrite : o.writeConfig = .ok) (hrunning : w.Running)
      (htaken : o.reloadCommand = .ok) (hlimit : ¬ w.LimitsOk o res.cpuLimit) :
      ReloadEnd tasks w m (some (.text err),
        { m with
          worker := some { w with
            cmd := none
            given := some (newWorkerConfig d.workerCfg tasks res) }
          current := tasks
          configFile := some (newWorkerConfig d.workerCfg tasks res) })
  | reloaded (limited : Bool) (hwrite : o.writeConfig = .ok) (hrunning : w.Running)
      (htaken : o.reloadCommand = .ok) (hlimit : w.LimitsOk o res.cpuLimit) :
      ReloadEnd tasks w m (none,
        { m with
          worker := some { w with
            resLimit := limited
            given := some (newWorkerConfig d.workerCfg tasks res) }
          current := tasks
          configFile := some (newWorkerConfig d.workerCfg tasks res) })

variable {m : WorkerManager} {w : Worker}

/-- The ways a reload ends, exhaustively. -/
theorem reloadWorker_end (tasks : List TaskConfig) (w : Worker) (hclient : m.client.isSome = true) :
    ReloadEnd d o res tasks w m (reloadWorker d o res tasks w m) := by
  obtain ⟨client, hclient⟩ := isSome_iff_exists.mp hclient
  obtain ⟨_, worker, current, configFile, starts, lost⟩ := m
  obtain rfl : _ = some client := hclient
  unfold reloadWorker writeConfig
  cases hwrite : o.writeConfig with
  | createFailed e => exact .notWritten _ _ (by rw [hwrite]; exact WriteResult.noConfusion)
  | writeFailed e => exact .notWritten _ _ (by rw [hwrite]; exact WriteResult.noConfusion)
  | ok =>
    by_cases hrunning : w.Running
    · have hcmd : w.cmd ≠ none := by
        obtain ⟨process, hprocess, -⟩ := hrunning
        rw [hprocess]
        exact some_ne_none _
      simp only [Worker.reloadCommand_of_running hrunning, Worker.reread, if_pos hrunning]
      cases hcommand : o.reloadCommand with
      | refused e => exact .notTaken _ hwrite fun _ => ⟨e, hcommand⟩
      | unanswered e => exact .unanswered _ hwrite hrunning ⟨e, hcommand⟩
      | ok =>
        simp only [map_none]
        unfold limitWorker
        rcases Worker.updateResLimit_cases o res.cpuLimit
          (w := { w with given := some (newWorkerConfig d.workerCfg tasks res) }) hcmd with
          ⟨hlimit, limited, heq⟩ | ⟨hlimit, err, heq⟩
        · rw [heq]
          exact .reloaded limited hwrite hrunning hcommand hlimit
        · rw [heq]
          exact .notLimited err hwrite hrunning hcommand hlimit
    · simp only [Worker.reloadCommand_of_not_running hrunning]
      exact .notTaken _ hwrite fun h => absurd h hrunning

/-! ## A create -/

variable {γ : Type} (gate : StartGate γ) (activeInstances : List String)

inductive CreateEnd (m : WorkerManager) (g : γ) : Applied γ → Prop
  | failed (err : MgrError) (hbuild : buildTasks d o.host res activeInstances = .error err) :
      CreateEnd m g ⟨.error err, m, g⟩
  | idle (built : TaskBuildResult) (hbuild : buildTasks d o.host res activeInstances = .ok built)
      (hnone : built.tasks = []) : CreateEnd m g ⟨.ok ⟨built.warnings, 0⟩, m, g⟩
  | refused (built : TaskBuildResult) (alloc : RingAlloc) (g' : γ)
      (hbuild : buildTasks d o.host res activeInstances = .ok built) (hsome : built.tasks ≠ [])
      (hgate : gate alloc g = (false, g')) : CreateEnd m g ⟨.error .startRefused, m, g'⟩
  | launched (built : TaskBuildResult) (alloc : RingAlloc) (g' : γ)
      (done : Option MgrError × WorkerManager)
      (hbuild : buildTasks d o.host res activeInstances = .ok built) (hsome : built.tasks ≠ [])
      (hgate : gate alloc g = (true, g')) (hdone : LaunchEnd d o res built.tasks m done) :
      CreateEnd m g (finish built g' done)

/-- The ways a create ends. -/
theorem createUnlocked_end (hworker : m.worker = none) (g : γ) :
    CreateEnd d o res gate activeInstances m g
      (m.createUnlocked d gate o res activeInstances g) := by
  unfold createUnlocked
  rw [hworker]
  cases hbuild : buildTasks d o.host res activeInstances with
  | error err => exact .failed err hbuild
  | ok built =>
    by_cases htasks : built.tasks = []
    · simp only [htasks, isSome_none, Bool.false_eq_true, if_false, if_true]
      exact .idle built hbuild htasks
    · simp only [htasks, isSome_none, Bool.false_eq_true, if_false]
      obtain ⟨answer, hanswer⟩ : ∃ answer, answer = gate ⟨ringCfgMb built.tasks,
        ringCfgMb built.tasks, res.effectiveMemLimitMb d.workerCfg.memory.defaultLimitMb, 0⟩ g :=
        ⟨_, rfl⟩
      rw [← hanswer]
      obtain ⟨allowed, g'⟩ := answer
      cases allowed with
      | true => exact .launched built _ g' _ hbuild htasks hanswer.symm (launch_end d o res _ m)
      | false => exact .refused built _ g' hbuild htasks hanswer.symm

/-! ## An update, or the restart of a dead worker -/

/-- The manager never holds a worker without a client. -/
def Held (m : WorkerManager) : Prop := m.worker.isSome = true → m.client.isSome = true

/-- The ways an update, or the restart of a dead worker, ends. A create starts from a manager whose
worker is stopped. -/
inductive ApplyEnd (m : WorkerManager) (g : γ) : Applied γ → Prop
  | failed (err : MgrError) (herr : err ≠ .startRefused) : ApplyEnd m g ⟨.error err, m, g⟩
  | created (applied : Applied γ)
      (h : CreateEnd d o res gate activeInstances m.stopWorker g applied) : ApplyEnd m g applied
  | emptied (result : WorkerCreateResult) : ApplyEnd m g ⟨.ok result, m.stopWorker, g⟩
  | refused (alloc : RingAlloc) (g' : γ) (hgate : gate alloc g = (false, g')) :
      ApplyEnd m g ⟨.error .startRefused, m, g'⟩
  | reloaded (built : TaskBuildResult) (w : Worker) (g' : γ)
      (done : Option MgrError × WorkerManager)
      (hbuild : buildTasks d o.host res activeInstances = .ok built) (hsome : built.tasks ≠ [])
      (hworker : m.worker = some w) (hgate : g' = g ∨ ∃ alloc, gate alloc g = (true, g'))
      (hdone : ReloadEnd d o res built.tasks w m done) : ApplyEnd m g (finish built g' done)

variable {d o res gate activeInstances}

theorem buildTasks_ne_startRefused {host : Host} {err : MgrError}
    (h : buildTasks d host res activeInstances = .error err) : err ≠ .startRefused := by
  rintro rfl
  unfold buildTasks at h
  split at h
  · cases h
  · cases hsize : getTaskBufferSizeMb d.workerCfg.memory res activeInstances with
    | error err =>
      rw [hsize] at h
      obtain rfl : err = .startRefused := Except.error.inj h
      unfold getTaskBufferSizeMb at hsize
      split at hsize
      · cases hsize
      · simp only at hsize
        split at hsize
        · cases hsize
        · split at hsize <;> cases hsize
      · cases hsize
    | ok size =>
      simp only [hsize] at h
      split at h <;> cases h

theorem stopWorker_of_none (hworker : m.worker = none) : m.stopWorker = m := by
  unfold stopWorker
  rw [hworker]

@[simp] theorem stopWorker_worker (m : WorkerManager) : m.stopWorker.worker = none := by
  unfold stopWorker
  cases hworker : m.worker with
  | none => exact hworker
  | some w => rfl

theorem applyEnd_of_create (hworker : m.worker = none) (g : γ) :
    ApplyEnd d o res gate activeInstances m g
      (m.createUnlocked d gate o res activeInstances g) := by
  apply ApplyEnd.created
  rw [stopWorker_of_none hworker]
  exact createUnlocked_end d o res gate activeInstances hworker g

/-- The ways an update under the reload policy ends. -/
theorem reloadConfig_end (hworker : m.worker = some w) (hclient : m.client.isSome = true) (g : γ) :
    ApplyEnd d o res gate activeInstances m g
      (m.reloadConfig d gate o res activeInstances w g) := by
  unfold reloadConfig
  cases hbuild : buildTasks d o.host res activeInstances with
  | error err => exact .failed err (buildTasks_ne_startRefused hbuild)
  | ok built =>
    by_cases htasks : built.tasks = []
    · simp only [htasks, if_true]
      exact .emptied _
    · simp only [htasks, if_false]
      obtain ⟨answer, hanswer⟩ : ∃ answer, answer = askReload d gate o res built.tasks w m g :=
        ⟨_, rfl⟩
      rw [← hanswer]
      obtain ⟨allowed, g'⟩ := answer
      have hasked : (allowed = true ∧ g' = g) ∨ ∃ alloc, gate alloc g = (allowed, g') := by
        by_cases hnew : 0 < newRingCfgMb m.current built.tasks
        · exact .inr ⟨_, (hanswer.trans (if_pos hnew)).symm⟩
        · exact .inl (Prod.mk.inj (hanswer.trans (if_neg hnew)))
      cases allowed with
      | true =>
        have hgate : g' = g ∨ ∃ alloc, gate alloc g = (true, g') := hasked.imp_left And.right
        exact .reloaded built w g' _ hbuild htasks hworker hgate
          (reloadWorker_end d o res _ w hclient)
      | false =>
        obtain ⟨h, -⟩ | ⟨alloc, hgate⟩ := hasked
        · cases h
        · exact .refused alloc g' hgate

theorem update_end (hheld : m.Held) (g : γ) :
    ApplyEnd d o res gate activeInstances m g (m.update d gate o res activeInstances g) := by
  unfold update
  rcases d.updatePolicy_eq with hpolicy | hpolicy
  · rw [hpolicy]
    exact .created _ (createUnlocked_end d o res gate activeInstances (stopWorker_worker m) g)
  · rw [hpolicy]
    simp only [updateByReload]
    cases hworker : m.worker with
    | none => exact applyEnd_of_create hworker g
    | some w =>
      apply reloadConfig_end hworker
      apply hheld
      rw [hworker]
      rfl

theorem reset_eq_stopWorker (hworker : m.worker = some w) (hcmd : w.cmd = none) :
    m.reset = m.stopWorker := by
  unfold stopWorker
  rw [hworker]
  simp [reset, process?, hworker, Worker.stop, hcmd]

theorem createIfDead_end (m : WorkerManager) (g : γ) :
    ApplyEnd d o res gate activeInstances m g
      (m.createIfDead d gate o res activeInstances g) := by
  unfold createIfDead
  cases hworker : m.worker with
  | none => exact applyEnd_of_create hworker g
  | some w =>
    by_cases hcmd : w.cmd = none
    · simp only [Worker.isAlive_of_none hcmd, reset_eq_stopWorker hworker hcmd]
      exact .created _ (createUnlocked_end d o res gate activeInstances (stopWorker_worker m) g)
    · rcases Worker.isAlive_of_ne_none hcmd o with halive | ⟨err, halive⟩
      all_goals
        simp only [halive]
        exact .failed _ (by simp)

/-- The gate refused, or let through what it was asked. -/
theorem ApplyEnd.gate_cases {g : γ} {applied : Applied γ}
    (hend : ApplyEnd d o res gate activeInstances m g applied) :
    (applied.result = .error .startRefused ∧ (∃ alloc, gate alloc g = (false, applied.gate)) ∧
        (applied.mgr = m ∨ applied.mgr = m.stopWorker)) ∨
      (applied.result ≠ .error .startRefused ∧
        (applied.gate = g ∨ ∃ alloc, gate alloc g = (true, applied.gate))) := by
  cases hend with
  | failed err herr => exact .inr ⟨fun h => herr (Except.error.inj h), .inl rfl⟩
  | emptied result => exact .inr ⟨(by simp), .inl rfl⟩
  | refused alloc g' hgate => exact .inl ⟨rfl, ⟨alloc, hgate⟩, .inl rfl⟩
  | reloaded built w g' done hbuild hsome hworker hgate hdone =>
    refine .inr ⟨?_, hgate⟩
    cases hdone <;> simp [finish]
  | created applied hcreate =>
    cases hcreate with
    | failed err hbuild =>
      exact .inr ⟨fun h => buildTasks_ne_startRefused hbuild (Except.error.inj h), .inl rfl⟩
    | idle built hbuild hnone => exact .inr ⟨(by simp), .inl rfl⟩
    | refused built alloc g' hbuild hsome hgate => exact .inl ⟨rfl, ⟨alloc, hgate⟩, .inr rfl⟩
    | launched built alloc g' done hbuild hsome hgate hdone =>
      refine .inr ⟨?_, .inr ⟨alloc, hgate⟩⟩
      cases hdone <;> simp [finish]

/-! ## No process is lost -/

/-- A worker comes with its client, and no handle was dropped while its process ran. -/
structure Sound (m : WorkerManager) : Prop where
  held : m.Held
  noneLost : m.lost = []

@[simp] theorem stopWorker_lost (m : WorkerManager) : m.stopWorker.lost = m.lost := by
  unfold stopWorker
  cases m.worker with
  | none => rfl
  | some w => exact List.append_nil _

@[simp] theorem stopWorker_starts (m : WorkerManager) : m.stopWorker.starts = m.starts := by
  unfold stopWorker
  cases m.worker <;> rfl

theorem Sound.of_none (hworker : m.worker = none) (hlost : m.lost = []) :
    m.Sound where
  held := by
    unfold Held
    rw [hworker]
    exact fun h => absurd h Bool.false_ne_true
  noneLost := hlost

theorem Sound.stopWorker (h : m.Sound) : m.stopWorker.Sound :=
  .of_none (stopWorker_worker m) (by rw [stopWorker_lost, h.noneLost])

theorem Sound.launch {tasks : List TaskConfig} {done : Option MgrError × WorkerManager}
    (h : m.Sound) (hdone : LaunchEnd d o res tasks m done) :
    done.2.Sound := by
  cases hdone with
  | noDir => exact h
  | notStarted | notLimited | started => exact ⟨fun _ => rfl, h.noneLost⟩

theorem Sound.reload {tasks : List TaskConfig} {done : Option MgrError × WorkerManager}
    (h : m.Sound) (hworker : m.worker = some w) (hdone : ReloadEnd d o res tasks w m done) :
    done.2.Sound := by
  have hclient : m.client.isSome = true := h.held (by rw [hworker]; rfl)
  cases hdone with
  | notWritten => exact ⟨h.held, h.noneLost⟩
  | notTaken | unanswered | notLimited | reloaded => exact ⟨fun _ => hclient, h.noneLost⟩

theorem Sound.apply {g : γ} {applied : Applied γ} (h : m.Sound)
    (hend : ApplyEnd d o res gate activeInstances m g applied) : applied.mgr.Sound := by
  cases hend with
  | failed | refused => exact h
  | emptied => exact h.stopWorker
  | created applied hcreate =>
    cases hcreate with
    | failed | idle | refused => exact h.stopWorker
    | launched built alloc g' done hbuild hsome hgate hdone => exact h.stopWorker.launch hdone
  | reloaded built w g' done hbuild hsome hworker hgate hdone => exact h.reload hworker hdone

end ends

end WorkerManager

end CloudProbe.Daemon
