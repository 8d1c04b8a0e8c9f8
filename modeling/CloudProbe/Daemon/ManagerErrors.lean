import CloudProbe.Daemon.Syncer

/-!
# What a failed call leaves in the manager

A call of the manager that returns an error should leave things as they were, or leave nothing
(`error_keeps_or_clears_iff`). Two steps break this: a handle is stored before its process is
started, and it stays when the limits cannot be set. `CallEnd` says how far a call gets.
-/

namespace CloudProbe.Daemon

open Lib Option

/-! ## Calls -/

/-- Source: `cpm/worker_mgr.go` `Update`, `CreateIfDead` -/
inductive MgrOperation where
  | update
  | createIfDead
deriving DecidableEq

structure MgrCall where
  operation : MgrOperation
  o : Outside
  res : SyncStrategyResponse
  activeInstances : List String
  allow : RingAlloc → Bool

namespace MgrCall

def gate (c : MgrCall) : StartGate Unit := fun alloc g => (c.allow alloc, g)

def run (d : Setup) (c : MgrCall) (m : WorkerManager) : Applied Unit :=
  match c.operation with
  | .update => m.update d c.gate c.o c.res c.activeInstances ()
  | .createIfDead => m.createIfDead d c.gate c.o c.res c.activeInstances ()

end MgrCall

/-- What happens to a manager: calls, a stop or a kill, and its process exits and is waited for. -/
inductive MgrEvent where
  | call (c : MgrCall)
  | stop
  | exits
  | reaped

def mgrStep (d : Setup) (m : WorkerManager) : MgrEvent → Option WorkerManager
  | .call c => some (c.run d m).mgr
  | .stop => some m.stopWorker
  | .exits => some { m with worker := m.worker.map Worker.exits }
  | .reaped => some { m with worker := m.worker.map Worker.reap }

/-! ## The shape of every manager reached -/

/-- Without a worker nothing is stored; with one there is the client of its socket. No process is
lost. -/
structure WorkerManager.Tidy (d : Setup) (m : WorkerManager) : Prop where
  empty : m.worker = none → m.client = none ∧ m.current = []
  client : m.worker ≠ none →
    ∃ client, m.client = some client ∧ newClient d.workerCfg.control.connectString = .ok client
  noneLost : m.lost = []

namespace WorkerManager

variable {d : Setup} {o : Outside} {res : SyncStrategyResponse} {m : WorkerManager}

theorem Tidy.held (h : m.Tidy d) : m.Held := by
  intro hworker
  obtain ⟨client, hclient, -⟩ := h.client (isSome_iff_ne_none.mp hworker)
  rw [hclient]
  rfl

theorem Tidy.of_none (hworker : m.worker = none) (hclient : m.client = none)
    (hcurrent : m.current = [])
    (hlost : m.lost = []) : m.Tidy d :=
  ⟨fun _ => ⟨hclient, hcurrent⟩, fun h => absurd hworker h, hlost⟩

theorem Tidy.cleared (h : m.Tidy d) : m.stopWorker.client = none ∧ m.stopWorker.current = [] := by
  unfold WorkerManager.stopWorker
  rcases hworker : m.worker with _ | w
  · exact h.empty hworker
  · exact ⟨rfl, rfl⟩

theorem Tidy.stopWorker (h : m.Tidy d) : m.stopWorker.Tidy d :=
  .of_none (stopWorker_worker m) h.cleared.1 h.cleared.2 (by rw [stopWorker_lost, h.noneLost])

theorem Tidy.map (h : m.Tidy d) (g : Worker → Worker) :
    Tidy d { m with worker := m.worker.map g } := by
  refine ⟨?_, ?_, h.noneLost⟩
  · intro hworker
    exact h.empty (map_eq_none_iff.mp hworker)
  · intro hworker
    exact h.client fun hnone => hworker (by rw [hnone]; rfl)

/-- Every end of a start leaves a tidy manager. -/
theorem Tidy.launch (h : m.Tidy d) {tasks : List TaskConfig}
    {done : Option MgrError × WorkerManager}
    (hdone : LaunchEnd d o res tasks m done) : done.2.Tidy d := by
  have hsome : ∀ {m' : WorkerManager} {w : Worker} {client : Client}, m'.worker = some w →
      m'.client = some client → newClient d.workerCfg.control.connectString = .ok client →
      m'.lost = m.lost → m'.Tidy d := by
    intro m' w client hworker hclient hnew hlost
    exact ⟨fun hnone => absurd (hworker.symm.trans hnone) (by simp),
      fun _ => ⟨client, hclient, hnew⟩,
      hlost.trans h.noneLost⟩
  cases hdone with
  | noDir => exact h
  | notStarted err client file hdir hstart hclient => exact hsome rfl rfl hclient rfl
  | notLimited err client pid hdir hwrite hstart hlimit hclient => exact hsome rfl rfl hclient rfl
  | started client pid limited hdir hwrite hstart hlimit hclient => exact hsome rfl rfl hclient rfl

/-- Every end of a reload leaves a tidy manager. -/
theorem Tidy.reload (h : m.Tidy d) {w : Worker} (hworker : m.worker = some w)
    {tasks : List TaskConfig}
    {done : Option MgrError × WorkerManager} (hdone : ReloadEnd d o res tasks w m done) :
    done.2.Tidy d := by
  have hclient := h.client (by rw [hworker]; exact some_ne_none _)
  have hsome : ∀ {m' : WorkerManager} {w' : Worker}, m'.worker = some w' → m'.client = m.client →
      m'.lost = m.lost → m'.Tidy d := by
    intro m' w' hworker' hsame hlost
    refine ⟨fun hnone => absurd (hworker'.symm.trans hnone) (by simp), fun _ => ?_,
      hlost.trans h.noneLost⟩
    rw [hsame]
    exact hclient
  cases hdone with
  | notWritten => exact hsome hworker rfl rfl
  | notTaken | unanswered | notLimited | reloaded => exact hsome rfl rfl rfl

theorem Tidy.apply {γ : Type} {gate : StartGate γ} {activeInstances : List String} {g : γ}
    {applied : Applied γ} (h : m.Tidy d)
    (hend : ApplyEnd d o res gate activeInstances m g applied) :
    applied.mgr.Tidy d := by
  cases hend with
  | failed | refused => exact h
  | emptied => exact h.stopWorker
  | created applied hcreate =>
    cases hcreate with
    | failed | idle | refused => exact h.stopWorker
    | launched built alloc g' done hbuild hsome hgate hdone => exact h.stopWorker.launch hdone
  | reloaded built w g' done hbuild hsome hworker hgate hdone => exact h.reload hworker hdone

end WorkerManager

/-! ## How far a call gets -/

namespace MgrCall

variable (d : Setup) (c : MgrCall) (m : WorkerManager)

/-- The call replaces the worker: an update by restart or without a worker, or a create that finds
no process. -/
def Creates : Prop :=
  match c.operation with
  | .update => d.workerCfg.updatePolicy = .restart ∨ m.worker = none
  | .createIfDead => ∀ w, m.worker = some w → w.cmd = none

/-- The call gets to the start of a worker with the tasks of `built`. -/
structure Launches (built : TaskBuildResult) : Prop where
  creates : c.Creates d m
  builds : buildTasks d c.o.host c.res c.activeInstances = .ok built
  some : built.tasks ≠ []
  allowed : c.allow ⟨ringCfgMb built.tasks, ringCfgMb built.tasks,
    c.res.effectiveMemLimitMb d.workerCfg.memory.defaultLimitMb, 0⟩ = true

/-- The call gets to the reload of the worker `w` with the tasks of `built`. -/
structure Reloads (w : Worker) (built : TaskBuildResult) : Prop where
  operation : c.operation = .update
  policy : d.workerCfg.updatePolicy = .reload
  worker : m.worker = some w
  builds : buildTasks d c.o.host c.res c.activeInstances = .ok built
  some : built.tasks ≠ []
  allowed : (WorkerManager.askReload d c.gate c.o c.res built.tasks w m ()).1 = true

inductive CallEnd : Applied Unit → Prop
  | launched (built : TaskBuildResult) (h : c.Launches d m built) :
      CallEnd (WorkerManager.finish built ()
        (WorkerManager.launch d c.o c.res built.tasks m.stopWorker))
  | reloaded (w : Worker) (built : TaskBuildResult) (h : c.Reloads d m w built) :
      CallEnd (WorkerManager.finish built ()
        (WorkerManager.reloadWorker d c.o c.res built.tasks w m))
  | neither (applied : Applied Unit) (hlaunches : ∀ built, ¬ c.Launches d m built)
      (hreloads : ∀ w built, ¬ c.Reloads d m w built)
      (hmgr : applied.mgr = m ∨ applied.mgr = m.stopWorker) : CallEnd applied

variable {d c m}

theorem Reloads.not_creates {w : Worker} {built : TaskBuildResult} (h : c.Reloads d m w built) :
    ¬ c.Creates d m := by
  unfold Creates
  rw [h.operation]
  rintro (hpolicy | hnone)
  · exact absurd (h.policy.symm.trans hpolicy) (by decide)
  · exact absurd (h.worker.symm.trans hnone) (by simp)

theorem run_of_creates (h : c.Creates d m) :
    c.run d m = m.stopWorker.createUnlocked d c.gate c.o c.res c.activeInstances () := by
  unfold Creates at h
  unfold run
  rcases hop : c.operation with _ | _
  · rw [hop] at h
    simp only [WorkerManager.update]
    rcases d.updatePolicy_eq with hpolicy | hpolicy
    · rw [hpolicy]
      rfl
    · rcases h with h | hnone
      · exact absurd (hpolicy.symm.trans h) (by decide)
      · rw [hpolicy, WorkerManager.stopWorker_of_none hnone]
        simp only [WorkerManager.updateByReload, hnone]
  · rw [hop] at h
    simp only [WorkerManager.createIfDead]
    rcases hworker : m.worker with _ | w
    · rw [WorkerManager.stopWorker_of_none hworker]
    · have hcmd := h w hworker
      simp only [Worker.isAlive_of_none hcmd, WorkerManager.reset_eq_stopWorker hworker hcmd]

/-- The ways a call that creates a worker ends. -/
theorem createUnlocked_callEnd (h : c.Creates d m) :
    CallEnd d c m (m.stopWorker.createUnlocked d c.gate c.o c.res c.activeInstances ()) := by
  have hreloads : ∀ w built, ¬ c.Reloads d m w built := fun w built hr => hr.not_creates h
  unfold WorkerManager.createUnlocked
  rw [WorkerManager.stopWorker_worker]
  rcases hbuild : buildTasks d c.o.host c.res c.activeInstances with err | built
  · refine .neither _ (fun built hl => ?_) hreloads (.inr rfl)
    exact absurd (hbuild.symm.trans hl.builds) (by simp)
  · have hunique : ∀ built', c.Launches d m built' → built' = built := fun built' hl =>
      Except.ok.inj (hl.builds.symm.trans hbuild)
    by_cases htasks : built.tasks = []
    · simp only [htasks, isSome_none, Bool.false_eq_true, if_false, if_true]
      refine .neither _ (fun built' hl => hl.some ?_) hreloads (.inr rfl)
      rw [hunique built' hl]
      exact htasks
    · simp only [htasks, isSome_none, Bool.false_eq_true, if_false]
      by_cases hallow : c.allow ⟨ringCfgMb built.tasks, ringCfgMb built.tasks,
          c.res.effectiveMemLimitMb d.workerCfg.memory.defaultLimitMb, 0⟩ = true
      · simp only [gate, hallow, if_true]
        exact .launched built ⟨h, hbuild, htasks, hallow⟩
      · simp only [gate, hallow]
        refine .neither _ (fun built' hl => hallow ?_) hreloads (.inr rfl)
        have hallowed := hl.allowed
        rw [hunique built' hl] at hallowed
        exact hallowed

/-- The ways a call of the manager ends, exhaustively. -/
theorem run_end (d : Setup) (c : MgrCall) (m : WorkerManager) : CallEnd d c m (c.run d m) := by
  by_cases hcreates : c.Creates d m
  · rw [run_of_creates hcreates]
    exact createUnlocked_callEnd hcreates
  · have hlaunches : ∀ built, ¬ c.Launches d m built := fun built hl => hcreates hl.creates
    unfold Creates at hcreates
    unfold run
    rcases hop : c.operation with _ | _
    · rw [hop] at hcreates
      simp only [not_or] at hcreates
      have hpolicy := d.updatePolicy_eq.resolve_left hcreates.1
      obtain ⟨w, hworker⟩ := ne_none_iff_exists'.mp hcreates.2
      simp only [WorkerManager.update, hpolicy, WorkerManager.updateByReload, hworker,
        WorkerManager.reloadConfig]
      have hnot : ∀ {applied : Applied Unit}, (∀ built, ¬ c.Reloads d m w built) →
          applied.mgr = m ∨ applied.mgr = m.stopWorker → CallEnd d c m applied := by
        intro applied hr hmgr
        refine .neither _ hlaunches (fun w' built hr' => ?_) hmgr
        obtain rfl := some.inj (hworker.symm.trans hr'.worker)
        exact hr built hr'
      rcases hbuild : buildTasks d c.o.host c.res c.activeInstances with err | built
      · exact hnot (fun built hr => absurd (hbuild.symm.trans hr.builds) (by simp)) (.inl rfl)
      · have hunique : ∀ built', c.Reloads d m w built' → built' = built := fun built' hr =>
          Except.ok.inj (hr.builds.symm.trans hbuild)
        by_cases htasks : built.tasks = []
        · simp only [htasks, if_true]
          refine hnot (fun built' hr => hr.some ?_) (.inr rfl)
          rw [hunique built' hr]
          exact htasks
        · simp only [htasks, if_false]
          by_cases hallow : (WorkerManager.askReload d c.gate c.o c.res built.tasks w m ()).1 = true
          · simp only [hallow, if_true]
            exact .reloaded w built ⟨hop, hpolicy, hworker, hbuild, htasks, hallow⟩
          · simp only [hallow]
            refine hnot (fun built' hr => hallow ?_) (.inl rfl)
            have hallowed := hr.allowed
            rw [hunique built' hr] at hallowed
            exact hallowed
    · rw [hop] at hcreates
      simp only [not_forall] at hcreates
      obtain ⟨w, hworker, hcmd⟩ := hcreates
      have hreloads : ∀ w built, ¬ c.Reloads d m w built := fun w built hr =>
        absurd (hop.symm.trans hr.operation) (by decide)
      simp only [WorkerManager.createIfDead, hworker]
      rcases Worker.isAlive_of_ne_none hcmd c.o with halive | ⟨err, halive⟩
      all_goals
        simp only [halive]
        exact .neither _ hlaunches hreloads (.inl rfl)

end MgrCall

/-! ## Errors -/

def Applied.Failed (applied : Applied Unit) : Prop := ∃ err, applied.result = .error err

/-- The configuration is written and the process starts. -/
def Outside.StartsOk (o : Outside) : Prop := o.writeConfig = .ok ∧ ∃ pid, o.startProcess = .ok pid

namespace WorkerManager

variable (m m' : WorkerManager)

/-- Worker, client and tasks are as before, in what the daemon stores of them. -/
def Kept : Prop :=
  m'.worker.map (fun w => (w.cmd, w.resLimit)) = m.worker.map (fun w => (w.cmd, w.resLimit)) ∧
    m'.client = m.client ∧ m'.current = m.current

def Cleared : Prop := ¬ m'.Alive ∧ m'.worker = none ∧ m'.client = none ∧ m'.current = []

/-- The manager holds the handle of a process that is gone, without limits, and these tasks. -/
def Idle (tasks : List TaskConfig) : Prop :=
  ∃ w, m.worker = some w ∧ w.cmd = none ∧ w.resLimit = false ∧ m.current = tasks

variable {m m'} {d : Setup}

theorem Tidy.kept_or_cleared (h : m.Tidy d) (hmgr : m' = m ∨ m' = m.stopWorker) :
    m.Kept m' ∨ m'.Cleared := by
  rcases hmgr with rfl | rfl
  · exact .inl ⟨rfl, rfl, rfl⟩
  · rcases hworker : m.worker with _ | w
    · rw [stopWorker_of_none hworker]
      exact .inl ⟨rfl, rfl, rfl⟩
    · refine .inr ⟨?_, stopWorker_worker m, h.cleared.1, h.cleared.2⟩
      unfold Alive process?
      simp [h.noneLost]

/-- A handle without a process is kept exactly when it was there. -/
theorem Tidy.kept_idle_iff (h : m.Tidy d) {w : Worker} {client : Client} {tasks : List TaskConfig}
    (hworker : m'.worker = some w) (hcmd : w.cmd = none) (hlimit : w.resLimit = false)
    (hclient : m'.client = some client)
    (hnew : newClient d.workerCfg.control.connectString = .ok client)
    (hcurrent : m'.current = tasks) :
    m.Kept m' ∨ m'.Cleared ↔ m.Idle tasks := by
  constructor
  · rintro (⟨hsame, -, htasks⟩ | ⟨-, hnone, -⟩)
    · rw [hworker, map_some, hcmd, hlimit] at hsame
      obtain ⟨w', hw', heq⟩ := map_eq_some_iff.mp hsame.symm
      obtain ⟨hcmd', hlimit'⟩ := Prod.mk.inj heq
      exact ⟨w', hw', hcmd', hlimit', htasks.symm.trans hcurrent⟩
    · exact absurd (hworker.symm.trans hnone) (by simp)
  · rintro ⟨w', hw', hcmd', hlimit', htasks⟩
    obtain ⟨client', hclient', hnew'⟩ := h.client (by rw [hw']; exact some_ne_none _)
    refine .inl ⟨?_, ?_, hcurrent.trans htasks.symm⟩
    · rw [hworker, hw', map_some, map_some, hcmd, hlimit, hcmd', hlimit']
    · rw [hclient, hclient', Except.ok.inj (hnew.symm.trans hnew')]

end WorkerManager

/-- If the call failed, it kept the manager or cleared it. -/
def Applied.KeepsOrClears (m : WorkerManager) (applied : Applied Unit) : Prop :=
  applied.Failed → m.Kept applied.mgr ∨ applied.mgr.Cleared

/-- **When a failed call is clean.** If the call gets to the start of a worker, its process starts
and its limits can be set; if it gets to a command that the worker takes, the limits can be set
after it. (A start that fails also goes unnoticed when the manager already held such a handle.) -/
structure CleanCall (d : Setup) (m : WorkerManager) (c : MgrCall) : Prop where
  launch : ∀ built, c.Launches d m built →
    WorkerManager.socketDirError d.workerCfg.control c.o.host = none →
    (c.o.StartsOk → ({} : Worker).LimitsOk c.o c.res.cpuLimit ∨ m.Idle built.tasks) ∧
      (¬ c.o.StartsOk → m.Idle [])
  reload : ∀ w built, c.Reloads d m w built → c.o.writeConfig = .ok → w.Running →
    c.o.reloadCommand = .ok → w.LimitsOk c.o c.res.cpuLimit

variable {d : Setup} {m : WorkerManager} {c : MgrCall} {built : TaskBuildResult}

theorem MgrCall.Launches.cleanCall_iff (h : c.Launches d m built) :
    CleanCall d m c ↔ (WorkerManager.socketDirError d.workerCfg.control c.o.host = none →
      (c.o.StartsOk → ({} : Worker).LimitsOk c.o c.res.cpuLimit ∨ m.Idle built.tasks) ∧
        (¬ c.o.StartsOk → m.Idle [])) := by
  refine ⟨fun hclean => hclean.launch built h, fun hlaunch => ⟨fun built' h' => ?_, ?_⟩⟩
  · rw [Except.ok.inj (h'.builds.symm.trans h.builds)]
    exact hlaunch
  · exact fun w built' hreloads => absurd h.creates hreloads.not_creates

theorem MgrCall.Reloads.cleanCall_iff {w : Worker} (h : c.Reloads d m w built) :
    CleanCall d m c ↔ (c.o.writeConfig = .ok → w.Running → c.o.reloadCommand = .ok →
      w.LimitsOk c.o c.res.cpuLimit) := by
  refine ⟨fun hclean => hclean.reload w built h, fun hreload => ⟨?_, fun w' built' h' => ?_⟩⟩
  · exact fun built' hlaunches => absurd hlaunches.creates h.not_creates
  · obtain rfl := some.inj (h.worker.symm.trans h'.worker)
    exact hreload

theorem WorkerManager.failed_finish {done : Option MgrError × WorkerManager} :
    (finish built () done).Failed ↔ done.1 ≠ none := by
  unfold finish Applied.Failed
  rcases done with ⟨_ | err, m'⟩ <;> simp

/-- For a call that gets to a start. -/
theorem launch_keeps_or_clears_iff (htidy : m.Tidy d) (h : c.Launches d m built) :
    (WorkerManager.finish built () (WorkerManager.launch d c.o c.res built.tasks
      m.stopWorker)).KeepsOrClears m ↔ CleanCall d m c := by
  have hcleared := htidy.cleared
  rw [h.cleanCall_iff]
  have hend := WorkerManager.launch_end d c.o c.res built.tasks m.stopWorker
  generalize WorkerManager.launch d c.o c.res built.tasks m.stopWorker = done at hend ⊢
  simp only [Applied.KeepsOrClears, WorkerManager.failed_finish]
  cases hend with
  | noDir err hdir =>
    refine ⟨fun _ hnone => absurd (hdir.symm.trans hnone) (by simp), fun _ _ => ?_⟩
    exact htidy.kept_or_cleared (.inr rfl)
  | notStarted err client file hdir hstart hclient =>
    have hfails : ¬ c.o.StartsOk := by
      rintro ⟨hwrite, pid, hpid⟩
      obtain ⟨e, he⟩ := hstart hwrite
      exact absurd (he.symm.trans hpid) (by simp)
    simp only [ne_eq, reduceCtorEq, not_false_eq_true, true_imp_iff, hdir, hfails, false_imp_iff,
      true_and]
    exact htidy.kept_idle_iff rfl rfl rfl rfl hclient hcleared.2
  | notLimited err client pid hdir hwrite hstart hlimit hclient =>
    have hstarts : c.o.StartsOk := ⟨hwrite, pid, hstart⟩
    simp only [ne_eq, reduceCtorEq, not_false_eq_true, true_imp_iff, hdir, hstarts, hlimit,
      false_or, not_true_eq_false, false_imp_iff, and_true]
    exact htidy.kept_idle_iff rfl rfl rfl rfl hclient rfl
  | started client pid limited hdir hwrite hstart hlimit hclient =>
    have hstarts : c.o.StartsOk := ⟨hwrite, pid, hstart⟩
    simp only [ne_eq, not_true_eq_false, false_imp_iff, true_iff]
    exact fun _ => ⟨fun _ => .inl hlimit, fun hfails => absurd hstarts hfails⟩

/-- For a call that gets to a reload. -/
theorem reload_keeps_or_clears_iff (htidy : m.Tidy d) {w : Worker} (h : c.Reloads d m w built) :
    (WorkerManager.finish built () (WorkerManager.reloadWorker d c.o c.res built.tasks w
      m)).KeepsOrClears m ↔ CleanCall d m c := by
  have hclient : m.client.isSome = true := htidy.held (by rw [h.worker]; rfl)
  rw [h.cleanCall_iff]
  have hend := WorkerManager.reloadWorker_end d c.o c.res built.tasks w hclient
  generalize WorkerManager.reloadWorker d c.o c.res built.tasks w m = done at hend ⊢
  simp only [Applied.KeepsOrClears, WorkerManager.failed_finish]
  have hkept : ∀ {m' : WorkerManager} (given : Option WorkerFile),
      m'.worker = some { w with given := given } → m'.client = m.client → m'.current = m.current →
      m.Kept m' := by
    intro m' given hworker hclient hcurrent
    refine ⟨?_, hclient, hcurrent⟩
    rw [hworker, h.worker]
    rfl
  cases hend with
  | notWritten err file hwrite =>
    refine ⟨fun _ hok => absurd hok hwrite, fun _ _ => .inl ?_⟩
    exact ⟨rfl, rfl, rfl⟩
  | notTaken err hwrite htaken =>
    refine ⟨fun _ _ hrunning hok => ?_, fun _ _ => .inl ?_⟩
    · obtain ⟨e, he⟩ := htaken hrunning
      exact absurd (he.symm.trans hok) (by simp)
    · exact hkept w.given rfl rfl rfl
  | unanswered err hwrite hrunning htaken =>
    refine ⟨fun _ _ _ hok => ?_, fun _ _ => .inl ?_⟩
    · obtain ⟨e, he⟩ := htaken
      exact absurd (he.symm.trans hok) (by simp)
    · exact hkept _ rfl rfl rfl
  | notLimited err hwrite hrunning htaken hlimit =>
    -- the process ran before the call and does not run after it, and its handle is still stored
    refine ⟨fun hkeeps => ?_, fun hclean => absurd (hclean hwrite hrunning htaken) hlimit⟩
    · obtain ⟨process, hprocess, -⟩ := hrunning
      rcases hkeeps (some_ne_none _) with ⟨hsame, -⟩ | ⟨-, hnone, -⟩
      · rw [h.worker] at hsame
        have hcmd := congrArg Prod.fst (some.inj hsame)
        exact absurd (hcmd.trans hprocess) (by simp)
      · cases hnone
  | reloaded limited hwrite hrunning htaken hlimit =>
    simp only [ne_eq, not_true_eq_false, false_imp_iff, true_iff]
    exact fun _ _ _ => hlimit

/-- **A failed call keeps or clears the manager exactly when it is clean.** -/
theorem error_keeps_or_clears_iff (htidy : m.Tidy d) (c : MgrCall) :
    (c.run d m).KeepsOrClears m ↔ CleanCall d m c := by
  have hend := c.run_end d m
  generalize c.run d m = applied at hend ⊢
  cases hend with
  | launched built h => exact launch_keeps_or_clears_iff htidy h
  | reloaded w built h => exact reload_keeps_or_clears_iff htidy h
  | neither applied hlaunches hreloads hmgr =>
    refine ⟨fun _ => ⟨?_, ?_⟩, fun _ _ => htidy.kept_or_cleared hmgr⟩
    · exact fun built h => absurd h (hlaunches built)
    · exact fun w built h => absurd h (hreloads w built)

/-! ## Runs -/

theorem tidy_mgrStep {m' : WorkerManager} {e : MgrEvent} (htidy : m.Tidy d)
    (hstep : mgrStep d m e = some m') : m'.Tidy d := by
  match e with
  | .call c =>
    obtain rfl := some.inj hstep
    unfold MgrCall.run
    rcases c.operation with _ | _
    · exact htidy.apply (WorkerManager.update_end htidy.held ())
    · exact htidy.apply (WorkerManager.createIfDead_end m ())
  | .stop =>
    obtain rfl := some.inj hstep
    exact htidy.stopWorker
  | .exits =>
    obtain rfl := some.inj hstep
    exact htidy.map Worker.exits
  | .reaped =>
    obtain rfl := some.inj hstep
    exact htidy.map Worker.reap

/-- A worker that is stored was started, and the tasks stored are those it was last given. -/
def WorkerManager.Given (m : WorkerManager) : Prop :=
  ∀ w, m.worker = some w → ∃ file, w.given = some file ∧ file.tasks = m.current

/-- A start that the call gets to succeeds, and a command that it gets to is not left unanswered. -/
def FaithfulEvent (d : Setup) (m : WorkerManager) : MgrEvent → Prop
  | .call c =>
    (∀ built, c.Launches d m built →
      WorkerManager.socketDirError d.workerCfg.control c.o.host = none → c.o.StartsOk) ∧
    ∀ w built, c.Reloads d m w built → c.o.writeConfig = .ok → w.Running →
      ∀ err, c.o.reloadCommand ≠ .unanswered err
  | _ => True

theorem WorkerManager.Given.of_none (hworker : m.worker = none) : m.Given :=
  fun w hw => absurd (hworker.symm.trans hw) (by simp)

/-- **The step lemma**: `current` stays what the worker was last given. -/
theorem WorkerManager.Given.run (h : m.Given) (htidy : m.Tidy d)
    (hfaithful : FaithfulEvent d m (.call c)) : (c.run d m).mgr.Given := by
  have hwritten : ∀ {m' : WorkerManager} {w : Worker} {tasks : List TaskConfig},
      m'.worker = some w → w.given = some (newWorkerConfig d.workerCfg tasks c.res) →
      m'.current = tasks → m'.Given := by
    intro m' w tasks hworker hgiven hcurrent w' hw'
    obtain rfl := some.inj (hworker.symm.trans hw')
    exact ⟨_, hgiven, hcurrent.symm⟩
  have hend := c.run_end d m
  generalize c.run d m = applied at hend ⊢
  cases hend with
  | launched built hl =>
    have hdone := WorkerManager.launch_end d c.o c.res built.tasks m.stopWorker
    generalize WorkerManager.launch d c.o c.res built.tasks m.stopWorker = done at hdone ⊢
    cases hdone with
    | noDir => exact .of_none (WorkerManager.stopWorker_worker m)
    | notStarted err client file hdir hstart =>
      obtain ⟨hwrite, pid, hpid⟩ := hfaithful.1 built hl hdir
      obtain ⟨e, he⟩ := hstart hwrite
      exact absurd (he.symm.trans hpid) (by simp)
    | notLimited | started => exact hwritten rfl rfl rfl
  | reloaded w built hr =>
    have hclient : m.client.isSome = true := htidy.held (by rw [hr.worker]; rfl)
    have hdone := WorkerManager.reloadWorker_end d c.o c.res built.tasks w hclient
    generalize WorkerManager.reloadWorker d c.o c.res built.tasks w m = done at hdone ⊢
    cases hdone with
    | notWritten => exact h
    | notTaken => exact fun w' hw' => h w' (hr.worker.trans hw')
    | unanswered err hwrite hrunning htaken =>
      obtain ⟨e, he⟩ := htaken
      exact absurd he (hfaithful.2 w built hr hwrite hrunning e)
    | notLimited | reloaded => exact hwritten rfl rfl rfl
  | neither applied hlaunches hreloads hmgr =>
    rcases hmgr with hmgr | hmgr
    · rw [hmgr]
      exact h
    · rw [hmgr]
      exact .of_none (WorkerManager.stopWorker_worker m)

/-- **The step lemma** over calls and exits. -/
theorem WorkerManager.Given.step {m' : WorkerManager} {e : MgrEvent} (h : m.Given)
    (htidy : m.Tidy d)
    (hfaithful : FaithfulEvent d m e) (hstep : mgrStep d m e = some m') : m'.Given := by
  have hmap : ∀ g : Worker → Worker, (∀ w, (g w).given = w.given) →
      WorkerManager.Given { m with worker := m.worker.map g } := by
    intro g hg w' hw'
    obtain ⟨w, hw, rfl⟩ := map_eq_some_iff.mp hw'
    rw [hg]
    exact h w hw
  match e with
  | .call c =>
    obtain rfl := some.inj hstep
    exact h.run htidy hfaithful
  | .stop =>
    obtain rfl := some.inj hstep
    exact .of_none (WorkerManager.stopWorker_worker m)
  | .exits =>
    obtain rfl := some.inj hstep
    exact hmap Worker.exits fun _ => rfl
  | .reaped =>
    obtain rfl := some.inj hstep
    exact hmap Worker.reap fun _ => rfl

/-- **The manager after an error.** A call that fails keeps or clears the manager exactly when the
call is clean; without failed starts and commands, a stored worker runs what `current` says. -/
theorem manager_after_error {es : List MgrEvent} (hrun : exec (mgrStep d) {} es = some m) :
    (∀ c : MgrCall, (c.run d m).KeepsOrClears m ↔ CleanCall d m c) ∧
      (Guarded (mgrStep d) (FaithfulEvent d) {} es → m.Given) := by
  have hempty : WorkerManager.Tidy d {} := .of_none rfl rfl rfl rfl
  have htidy : m.Tidy d :=
    exec_invariant (P := WorkerManager.Tidy d) (fun _ _ _ => tidy_mgrStep) hempty hrun
  refine ⟨error_keeps_or_clears_iff htidy, fun hfaithful => ?_⟩
  have hboth : m.Tidy d ∧ m.Given := by
    apply exec_invariant_of_guard (P := fun m : WorkerManager => m.Tidy d ∧ m.Given) _
      ⟨hempty, .of_none rfl⟩ hfaithful hrun
    intro m e m' hP hG hstep
    exact ⟨tidy_mgrStep hP.1 hstep, hP.2.step hP.1 hG hstep⟩
  exact hboth.2

def firstUpdate (o : Outside) : MgrCall := ⟨.update, o, sampleStrategy 1 false, [], fun _ => true⟩

/-- After the first update the worker runs with the tasks stored. -/
theorem manager_after_error_first_update :
    let d := (sampleDaemon .reload rfl).toSetup
    let m := ((firstUpdate sampleOutside).run d {}).mgr
    m.worker.isSome = true ∧ (∀ c : MgrCall, (c.run d m).KeepsOrClears m ↔ CleanCall d m c) ∧
      m.Given := by
  intro d m
  have hrun : exec (mgrStep d) {} [.call (firstUpdate sampleOutside)] = some m := rfl
  obtain ⟨hclean, hgiven⟩ := manager_after_error hrun
  refine ⟨rfl, hclean, hgiven ⟨⟨fun _ _ _ => ⟨rfl, 100, rfl⟩, fun _ _ _ _ _ err => ?_⟩, ?_⟩⟩
  · exact CommandResult.noConfusion
  · exact fun _ _ => trivial

/-- **A start that fails leaves its handle**: the error is returned, and a handle without a process
is stored. -/
theorem failed_start_leaves_handle :
    let d := (sampleDaemon .reload rfl).toSetup
    let applied :=
      (firstUpdate { sampleOutside with startProcess := .error "fork failed" }).run d {}
    applied.Failed ∧ ¬ WorkerManager.Kept {} applied.mgr ∧ ¬ applied.mgr.Cleared ∧
      ¬ applied.mgr.Given := by
  refine ⟨⟨_, rfl⟩, fun h => absurd h.1 (by decide +kernel),
    fun h => absurd h.2.1 (by decide +kernel),
    fun h => ?_⟩
  obtain ⟨file, hfile, -⟩ := h {} rfl
  cases hfile

end CloudProbe.Daemon
