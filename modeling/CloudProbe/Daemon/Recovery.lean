import CloudProbe.Daemon.Syncer
import CloudProbe.Lib.Attempts

/-!
# Recovery after a worker death

CPM delivers a changed strategy again and again until the daemon takes it. Whether a live worker
with its tasks comes out of this is decided by the update policy and the handle that the manager
holds when the first delivery arrives.

* **Deliveries** (`Delivery`): the gate lets the strategy through, files are written and processes
  start; nothing else is assumed.
* **Restart**: every delivery starts over, so one good attempt is enough.
* **Reload**: without a worker the first attempt that gets to the start decides, with a running one
  the first command that it takes. A worker that is gone is never replaced
  (`not_recovers_of_gone`).
-/

namespace CloudProbe.Daemon

open Lib Option

variable {d : SyncerSetup} {resp : SyncStrategyResponse} {s : Syncer} {o : Outside}

def Builds (d : SyncerSetup) (resp : SyncStrategyResponse) (o : Outside) (built : TaskBuildResult) :
    Prop :=
  buildTasks d.toSetup o.host resp (Syncer.activeInstancesIfRequired o resp) = .ok built

/-- What the manager makes of the strategy, behind the fuse. -/
def Syncer.applied (d : SyncerSetup) (resp : SyncStrategyResponse) (s : Syncer) (o : Outside) :
    Applied Fuse :=
  s.mgr.update d.toSetup (startGate d o) o resp (Syncer.activeInstancesIfRequired o resp)
    (s.fuse.onStrategy resp.memFuseEnabled resp.memFused).2

/-- **What is assumed of a delivery**: fuse and gate let it through, some item of the strategy is
buildable, files are written and processes start. -/
structure Delivery (d : SyncerSetup) (resp : SyncStrategyResponse) (s : Syncer) (o : Outside) :
    Prop where
  fuse : (s.fuse.onStrategy resp.memFuseEnabled resp.memFused).1 = true
  gate : (s.applied d resp o).result ≠ .error .startRefused
  buildable : ∃ built, Builds d resp o built ∧ built.tasks ≠ []
  written : o.writeConfig = .ok
  starts : ∃ pid, o.startProcess = .ok pid

def deliver (d : SyncerSetup) (resp : SyncStrategyResponse) (s : Syncer) (o : Outside) : Syncer :=
  { s.applyChanged d o resp with phase := .syncing 0 }

/-- A live worker that was given exactly the tasks built at this delivery. -/
def Serves (d : SyncerSetup) (resp : SyncStrategyResponse) (s : Syncer) (o : Outside) : Prop :=
  ∃ w built, s.mgr.worker = some w ∧ w.Running ∧ Builds d resp o built ∧
    w.given.map WorkerFile.tasks = some built.tasks

theorem deliver_mgr (h : Delivery d resp s o) :
    (deliver d resp s o).mgr = (s.applied d resp o).mgr := by
  have hallowed : s.fuseAllowsStrategy o resp =
      (true, { s with fuse := (s.fuse.onStrategy resp.memFuseEnabled resp.memFused).2 }) := by
    unfold Syncer.fuseAllowsStrategy
    simp only [h.fuse, true_or, if_true]
  have hgate := h.gate
  unfold deliver Syncer.applyChanged
  simp only [hallowed, if_true]
  unfold Syncer.applied at hgate ⊢
  unfold Syncer.conclude
  simp only
  split
  · rename_i hrefused
    exact absurd hrefused hgate
  · rfl
  · rfl

theorem serves_of_given {w : Worker} {built : TaskBuildResult} (hworker : s.mgr.worker = some w)
    (hrunning : w.Running) (hbuilt : Builds d resp o built)
    (hgiven : w.given = some (newWorkerConfig d.workerCfg built.tasks resp)) :
    Serves d resp s o := by
  refine ⟨w, built, hworker, hrunning, hbuilt, ?_⟩
  rw [hgiven]
  rfl

theorem Builds.unique {b b' : TaskBuildResult} (h : Builds d resp o b) (h' : Builds d resp o b') :
    b = b' :=
  Except.ok.inj (h.symm.trans h')

/-! ## A create -/

/-- What a delivery that gets to the start does. -/
theorem Delivery.launch (h : Delivery d resp s o) {m : WorkerManager}
    (hcreate : WorkerManager.CreateEnd d.toSetup o resp (startGate d o)
      (Syncer.activeInstancesIfRequired o resp) m
      (s.fuse.onStrategy resp.memFuseEnabled resp.memFused).2 (s.applied d resp o)) :
    ∃ built, Builds d resp o built ∧ ∃ done,
      WorkerManager.LaunchEnd d.toSetup o resp built.tasks m done ∧
      (s.applied d resp o).mgr = done.2 := by
  obtain ⟨built, hbuilt, hsome⟩ := h.buildable
  have hgate := h.gate
  generalize s.applied d resp o = applied at hcreate hgate ⊢
  cases hcreate with
  | failed err hbuild => exact absurd (hbuild.symm.trans hbuilt) (by simp)
  | idle built' hbuild hnone =>
    obtain rfl := Builds.unique hbuild hbuilt
    exact absurd hnone hsome
  | refused => exact absurd rfl hgate
  | launched built' alloc g' done hbuild hsome' hgate' hdone =>
    exact ⟨built', hbuild, done, hdone, rfl⟩

/-- An attempt that gets to the start: the directory of the socket can be made. -/
def Startable (d : SyncerSetup) (o : Outside) : Prop :=
  WorkerManager.socketDirError d.workerCfg.control o.host = none

/-- What a delivery does when the manager has no worker. -/
theorem Delivery.create (h : Delivery d resp s o) {m : WorkerManager} (hworker : m.worker = none)
    (hcreate : WorkerManager.CreateEnd d.toSetup o resp (startGate d o)
      (Syncer.activeInstancesIfRequired o resp) m
      (s.fuse.onStrategy resp.memFuseEnabled resp.memFused).2 (s.applied d resp o)) :
    (¬ Startable d o ∧ (deliver d resp s o).mgr.worker = none) ∨
      (Startable d o ∧ ¬ ({} : Worker).LimitsOk o resp.cpuLimit ∧
        (deliver d resp s o).mgr.client.isSome = true ∧
        ∃ w, (deliver d resp s o).mgr.worker = some w ∧ ¬ w.Running) ∨
      (Startable d o ∧ ({} : Worker).LimitsOk o resp.cpuLimit ∧
        Serves d resp (deliver d resp s o) o) := by
  obtain ⟨built, hbuilt, done, hdone, heq⟩ := h.launch hcreate
  have hmgr := (deliver_mgr h).trans heq
  unfold Startable
  cases hdone with
  | noDir err hdir =>
    refine .inl ⟨?_, ?_⟩
    · rw [hdir]
      exact some_ne_none _
    · rw [hmgr]
      exact hworker
  | notStarted err client file hdir hstart =>
    obtain ⟨e, he⟩ := hstart h.written
    obtain ⟨pid, hpid⟩ := h.starts
    exact absurd (he.symm.trans hpid) (by simp)
  | notLimited err client pid hdir hwrite hstart hlimit =>
    refine .inr (.inl ⟨hdir, hlimit, ?_, _, congrArg WorkerManager.worker hmgr, ?_⟩)
    · rw [hmgr]
      rfl
    · rintro ⟨process, hprocess, -⟩
      cases hprocess
  | started client pid limited hdir hwrite hstart hlimit =>
    refine .inr (.inr ⟨hdir, hlimit, ?_⟩)
    exact serves_of_given (congrArg WorkerManager.worker hmgr) ⟨_, rfl, rfl⟩ hbuilt rfl

/-- Under the restart policy every delivery decides for itself. -/
theorem deliver_restart (hpolicy : d.workerCfg.updatePolicy = .restart) (h : Delivery d resp s o) :
    Serves d resp (deliver d resp s o) o ↔
      Startable d o ∧ ({} : Worker).LimitsOk o resp.cpuLimit := by
  have hcreate : WorkerManager.CreateEnd d.toSetup o resp (startGate d o)
      (Syncer.activeInstancesIfRequired o resp) s.mgr.stopWorker
      (s.fuse.onStrategy resp.memFuseEnabled resp.memFused).2 (s.applied d resp o) := by
    unfold Syncer.applied WorkerManager.update
    rw [hpolicy]
    exact WorkerManager.createUnlocked_end _ _ _ _ _ (WorkerManager.stopWorker_worker _) _
  rcases h.create (WorkerManager.stopWorker_worker _) hcreate with
    ⟨hstart, hworker⟩ | ⟨hstart, hlimit, -, w, hworker, hgone⟩ | ⟨hstart, hlimit, hserves⟩
  · refine ⟨?_, fun hgood => absurd hgood.1 hstart⟩
    rintro ⟨w, built, hw, -⟩
    exact absurd (hworker.symm.trans hw) (by simp)
  · refine ⟨?_, fun hgood => absurd hgood.2 hlimit⟩
    rintro ⟨w', built, hw, hrunning, -⟩
    obtain rfl := some.inj (hworker.symm.trans hw)
    exact absurd hrunning hgone
  · exact ⟨fun _ => ⟨hstart, hlimit⟩, fun _ => hserves⟩

/-! ## Reloads -/

/-- The manager holds a worker whose process does not run. -/
def Gone (s : Syncer) : Prop :=
  s.mgr.client.isSome = true ∧ ∃ w, s.mgr.worker = some w ∧ ¬ w.Running

theorem Gone.not_serves (h : Gone s) : ¬ Serves d resp s o := by
  rintro ⟨w, built, hw, hrunning, -⟩
  obtain ⟨-, w', hw', hgone⟩ := h
  obtain rfl := some.inj (hw'.symm.trans hw)
  exact hgone hrunning

theorem createEnd_of_reload (hpolicy : d.workerCfg.updatePolicy = .reload)
    (hworker : s.mgr.worker = none) (o : Outside) :
    WorkerManager.CreateEnd d.toSetup o resp (startGate d o)
      (Syncer.activeInstancesIfRequired o resp) s.mgr
      (s.fuse.onStrategy resp.memFuseEnabled resp.memFused).2 (s.applied d resp o) := by
  unfold Syncer.applied WorkerManager.update WorkerManager.updateByReload
  rw [hpolicy, hworker]
  exact WorkerManager.createUnlocked_end _ _ _ _ _ hworker _

/-- What a delivery does under the reload policy. -/
theorem Delivery.reload (h : Delivery d resp s o) (hpolicy : d.workerCfg.updatePolicy = .reload)
    (hclient : s.mgr.client.isSome = true) {w : Worker} (hworker : s.mgr.worker = some w) :
    ∃ built, Builds d resp o built ∧ ∃ done,
      WorkerManager.ReloadEnd d.toSetup o resp built.tasks w s.mgr done ∧
      (deliver d resp s o).mgr = done.2 := by
  obtain ⟨built, hbuilt, hsome⟩ := h.buildable
  have hbuild : buildTasks d.toSetup o.host resp (Syncer.activeInstancesIfRequired o resp) =
    .ok built := hbuilt
  refine ⟨built, hbuilt, _, WorkerManager.reloadWorker_end d.toSetup o resp built.tasks w hclient,
    ?_⟩
  have hgate := h.gate
  rw [deliver_mgr h]
  unfold Syncer.applied WorkerManager.update WorkerManager.updateByReload at hgate ⊢
  rw [hpolicy, hworker] at hgate ⊢
  simp only [WorkerManager.reloadConfig, hbuild, if_neg hsome] at hgate ⊢
  split
  · rfl
  · rename_i hasked
    rw [if_neg hasked] at hgate
    exact absurd rfl hgate

theorem Gone.deliver (hpolicy : d.workerCfg.updatePolicy = .reload) (h : Delivery d resp s o)
    (hgone : Gone s) : Gone (deliver d resp s o) := by
  obtain ⟨hclient, w, hworker, hdead⟩ := hgone
  obtain ⟨built, hbuilt, done, hdone, hmgr⟩ := h.reload hpolicy hclient hworker
  unfold Gone
  rw [hmgr]
  cases hdone with
  | notWritten err file hwrite => exact absurd h.written hwrite
  | notTaken err hwrite htaken => exact ⟨hclient, w, rfl, hdead⟩
  | unanswered err hwrite hrunning | notLimited err hwrite hrunning => exact absurd hrunning hdead
  | reloaded limited hwrite hrunning => exact absurd hrunning hdead

theorem gone_stuck (hpolicy : d.workerCfg.updatePolicy = .reload) (s : Syncer) (o : Outside)
    (h : Delivery d resp s o) (hgone : Gone s) :
    Gone (deliver d resp s o) ∧ ¬ Serves d resp (deliver d resp s o) o :=
  ⟨hgone.deliver hpolicy h, (hgone.deliver hpolicy h).not_serves⟩

/-- Without a worker the daemon waits for a start that gets through. -/
theorem waiting_without_worker (hpolicy : d.workerCfg.updatePolicy = .reload) :
    Waiting (deliver d resp) (Delivery d resp) (fun s => s.mgr.worker = none) Gone (Serves d resp)
      (Startable d) (fun o => ({} : Worker).LimitsOk o resp.cpuLimit) (fun _ => False) where
  wait := by
    intro s o h hworker hstart
    rcases h.create hworker (createEnd_of_reload hpolicy hworker o) with
      ⟨-, hnone⟩ | ⟨hstart', -⟩ | ⟨hstart', -⟩
    · refine ⟨hnone, ?_, False.elim⟩
      rintro ⟨w, built, hw, -⟩
      exact absurd (hnone.symm.trans hw) (by simp)
    all_goals exact absurd hstart' hstart
  act := by
    intro s o h hworker hstart hlimit
    rcases h.create hworker (createEnd_of_reload hpolicy hworker o) with
      ⟨hstart', -⟩ | ⟨-, hlimit', -⟩ | ⟨-, -, hserves⟩
    · exact absurd hstart hstart'
    · exact absurd hlimit hlimit'
    · exact hserves
  miss := by
    intro s o h hworker hstart hlimit
    rcases h.create hworker (createEnd_of_reload hpolicy hworker o) with
      ⟨hstart', -⟩ | ⟨-, -, hgone⟩ | ⟨-, hlimit', -⟩
    · exact absurd hstart hstart'
    · exact ⟨hgone, Gone.not_serves hgone⟩
    · exact absurd hlimit' hlimit
  stuck := gone_stuck hpolicy

/-- The running worker does not take the command. -/
def Refused (o : Outside) : Prop := ∃ err, o.reloadCommand = .refused err

/-- The running worker takes the command, but its answer is lost. -/
def Unanswered (o : Outside) : Prop := ∃ err, o.reloadCommand = .unanswered err

/-- The manager holds the running worker `w`, as far as reloads read it. -/
def Holds (w : Worker) (s : Syncer) : Prop :=
  s.mgr.client.isSome = true ∧ s.mgr.worker = some w ∧ w.Running

/-- Under the reload policy the daemon waits for a command that its worker takes. -/
theorem waiting_with_worker (hpolicy : d.workerCfg.updatePolicy = .reload) (w : Worker) :
    Waiting (deliver d resp) (Delivery d resp) (Holds w) Gone (Serves d resp)
      (fun o => ¬ Refused o) (fun o => Unanswered o ∨ w.LimitsOk o resp.cpuLimit)
      (fun o => ∃ built, Builds d resp o built ∧
        w.given.map WorkerFile.tasks = some built.tasks) where
  wait := by
    rintro s o h ⟨hclient, hworker, hrunning⟩ hrefused
    rw [not_not] at hrefused
    obtain ⟨err, hrefused⟩ := hrefused
    obtain ⟨built, hbuilt, done, hdone, hmgr⟩ := h.reload hpolicy hclient hworker
    have hsame : (deliver d resp s o).mgr.client = s.mgr.client ∧
        (deliver d resp s o).mgr.worker = some w := by
      rw [hmgr]
      cases hdone with
      | notWritten err file hwrite => exact absurd h.written hwrite
      | notTaken err hwrite htaken => exact ⟨rfl, rfl⟩
      | unanswered err hwrite hrunning htaken =>
        obtain ⟨e, htaken⟩ := htaken
        exact absurd (hrefused.symm.trans htaken) (by simp)
      | notLimited err hwrite hrunning htaken | reloaded limited hwrite hrunning htaken =>
        exact absurd (hrefused.symm.trans htaken) (by simp)
    refine ⟨⟨hsame.1 ▸ hclient, hsame.2, hrunning⟩, ?_, ?_⟩
    · rintro ⟨w', built', hw', -, hbuilt', hgiven⟩
      obtain rfl := some.inj (hsame.2.symm.trans hw')
      exact ⟨built', hbuilt', hgiven⟩
    · rintro ⟨built', hbuilt', hgiven⟩
      exact ⟨w, built', hsame.2, hrunning, hbuilt', hgiven⟩
  act := by
    rintro s o h ⟨hclient, hworker, hrunning⟩ htakes hgood
    obtain ⟨built, hbuilt, done, hdone, hmgr⟩ := h.reload hpolicy hclient hworker
    have hgiven := congrArg WorkerManager.worker hmgr
    cases hdone with
    | notWritten err file hwrite => exact absurd h.written hwrite
    | notTaken err hwrite htaken => exact absurd (htaken hrunning) htakes
    | unanswered err hwrite hrunning htaken | reloaded limited hwrite hrunning htaken hlimit =>
      exact serves_of_given hgiven hrunning hbuilt rfl
    | notLimited err hwrite hrunning htaken hlimit =>
      rcases hgood with ⟨e, hunanswered⟩ | hlimit'
      · exact absurd (htaken.symm.trans hunanswered) (by simp)
      · exact absurd hlimit' hlimit
  miss := by
    rintro s o h ⟨hclient, hworker, hrunning⟩ htakes hbad
    obtain ⟨built, hbuilt, done, hdone, hmgr⟩ := h.reload hpolicy hclient hworker
    have hgone : Gone (deliver d resp s o) := by
      unfold Gone
      rw [hmgr]
      cases hdone with
      | notWritten err file hwrite => exact absurd h.written hwrite
      | notTaken err hwrite htaken => exact absurd (htaken hrunning) htakes
      | unanswered err hwrite hrunning htaken => exact absurd (.inl htaken) hbad
      | notLimited err hwrite hrunning htaken hlimit =>
        refine ⟨hclient, _, rfl, ?_⟩
        rintro ⟨process, hprocess, -⟩
        cases hprocess
      | reloaded limited hwrite hrunning htaken hlimit => exact absurd (.inr hlimit) hbad
    exact ⟨hgone, hgone.not_serves⟩
  stuck := gone_stuck hpolicy

/-! ## Any number of deliveries -/

def deliveries (resp : SyncStrategyResponse) (o : ℕ → Outside) (n : ℕ) : List Event :=
  (List.range n).map fun k => .strategy (.changed resp) (o k)

/-- **Recovery**: after some number of deliveries a live worker was given exactly the tasks built
from the strategy. -/
def Recovers (d : SyncerSetup) (resp : SyncStrategyResponse) (s : Syncer) (o : ℕ → Outside) :
    Prop :=
  ∃ n t, exec (step d) s (deliveries resp o (n + 1)) = some t ∧ Serves d resp t (o n)

/-- **When it recovers**: under the restart policy, some attempt gets to the start and sets the
limits; under the reload policy, without a worker the first attempt that gets to the start sets the
limits, and with a running one the first command it takes is unanswered or followed by limits that
can be set (before that, it may have the tasks already). -/
def Recoverable (d : SyncerSetup) (resp : SyncStrategyResponse) (s : Syncer) (o : ℕ → Outside) :
    Prop :=
  (d.workerCfg.updatePolicy = .restart ∧
      ∃ n, Startable d (o n) ∧ ({} : Worker).LimitsOk (o n) resp.cpuLimit) ∨
    (d.workerCfg.updatePolicy = .reload ∧ s.mgr.worker = none ∧
      ∃ n, (∀ k < n, ¬ Startable d (o k)) ∧ Startable d (o n) ∧
        ({} : Worker).LimitsOk (o n) resp.cpuLimit) ∨
    (d.workerCfg.updatePolicy = .reload ∧ ∃ w, s.mgr.worker = some w ∧ w.Running ∧
      ∃ n, (∀ k < n, Refused (o k)) ∧
        (¬ Refused (o n) → Unanswered (o n) ∨ w.LimitsOk (o n) resp.cpuLimit) ∧
        (Refused (o n) → ∃ built, Builds d resp (o n) built ∧
          w.given.map WorkerFile.tasks = some built.tasks))

variable {o : ℕ → Outside}

theorem exec_deliveries (hphase : ∃ failCount, s.phase = .syncing failCount) (n : ℕ) :
    exec (step d) s (deliveries resp o n) = some (feed (deliver d resp) s o n) := by
  have hsyncing : ∀ n, ∃ failCount, (feed (deliver d resp) s o n).phase = .syncing failCount := by
    intro n
    cases n with
    | zero => exact hphase
    | succ n => exact ⟨0, rfl⟩
  induction n with
  | zero => rfl
  | succ n ih =>
    unfold deliveries
    rw [List.range_succ, List.map_append, exec_append_eq_some]
    refine ⟨_, ih, ?_⟩
    obtain ⟨failCount, hcount⟩ := hsyncing n
    apply (exec_cons_eq_some _).mpr
    refine ⟨_, ?_, rfl⟩
    unfold step
    rw [hcount]
    rfl

theorem recovers_iff_feed (hphase : ∃ failCount, s.phase = .syncing failCount) :
    Recovers d resp s o ↔ ∃ n, Serves d resp (feed (deliver d resp) s o (n + 1)) (o n) := by
  unfold Recovers
  simp only [exec_deliveries hphase, some.injEq, exists_eq_left']

/-- **A worker that is gone is not replaced** under the reload policy, whatever the number of
deliveries. -/
theorem not_recovers_of_gone (hpolicy : d.workerCfg.updatePolicy = .reload)
    (hphase : ∃ failCount, s.phase = .syncing failCount) (hgone : Gone s)
    (ho : ∀ k, Delivery d resp (feed (deliver d resp) s o k) (o k)) : ¬ Recovers d resp s o := by
  rw [recovers_iff_feed hphase]
  exact not_exists_goal_of_stuck (gone_stuck hpolicy) ho hgone

/-- **Exactly when the daemon recovers**, from every state reached in the sync loop, as long as
deliveries get through and what they need succeeds. -/
theorem recovers_iff_recoverable (hs : Reached d s)
    (hphase : ∃ failCount, s.phase = .syncing failCount)
    (ho : ∀ k t, exec (step d) s (deliveries resp o k) = some t → Delivery d resp t (o k)) :
    Recovers d resp s o ↔ Recoverable d resp s o := by
  have hdelivery : ∀ k, Delivery d resp (feed (deliver d resp) s o k) (o k) :=
    fun k => ho k _ (exec_deliveries hphase k)
  unfold Recoverable
  rcases d.updatePolicy_eq with hpolicy | hpolicy
  · have hne : UpdatePolicy.restart ≠ .reload := by decide
    simp only [hpolicy, true_and, hne, false_and, or_false]
    rw [recovers_iff_feed hphase]
    exact exists_congr fun n => deliver_restart hpolicy (hdelivery n)
  · have hne : UpdatePolicy.reload ≠ .restart := by decide
    simp only [hpolicy, true_and, hne, false_and, false_or]
    cases hworker : s.mgr.worker with
    | none =>
      rw [recovers_iff_feed hphase,
        (waiting_without_worker hpolicy).exists_goal_iff hdelivery hworker]
      simp only [true_and, imp_false, not_not, reduceCtorEq, false_and, exists_false, or_false]
      refine exists_congr fun n => and_congr_right fun _ => ?_
      exact ⟨fun h => ⟨h.2, h.1 h.2⟩, fun h => ⟨fun _ => h.2, h.1⟩⟩
    | some w =>
      simp only [reduceCtorEq, false_and, false_or, some.injEq, exists_eq_left']
      have hclient : s.mgr.client.isSome = true := by
        apply hs.sound.held
        rw [hworker]
        rfl
      by_cases hrunning : w.Running
      · rw [recovers_iff_feed hphase, (waiting_with_worker hpolicy w).exists_goal_iff hdelivery
          ⟨hclient, hworker, hrunning⟩]
        simp only [not_not, hrunning, true_and]
      · have hnot := not_recovers_of_gone hpolicy hphase ⟨hclient, w, hworker, hrunning⟩ hdelivery
        simp only [hrunning, false_and, iff_false]
        exact hnot

def reloading : SyncerSetup := sampleDaemon .reload rfl

theorem feed_of_fixed {s : Syncer} {o : Outside}
    (hfixed : deliver d resp (deliver d resp s o) o = deliver d resp s o) (k : ℕ) :
    feed (deliver d resp) s (fun _ => o) (k + 1) = deliver d resp s o := by
  induction k with
  | zero => rfl
  | succ k ih =>
    rw [feed, ih]
    exact hfixed

theorem delivery_sample {s : Syncer} (version : Int32)
    (hphase : ∃ failCount, s.phase = .syncing failCount)
    (hfixed : deliver reloading (sampleStrategy version false)
      (deliver reloading (sampleStrategy version false) s sampleOutside) sampleOutside =
      deliver reloading (sampleStrategy version false) s sampleOutside)
    (hdelivery : ∀ t, t = s ∨ t = deliver reloading (sampleStrategy version false) s sampleOutside →
      (t.fuse.onStrategy false false).1 = true ∧
        (t.applied reloading (sampleStrategy version false) sampleOutside).result ≠
          .error .startRefused) (k : ℕ) (t : Syncer)
    (ht : exec (step reloading) s
      (deliveries (sampleStrategy version false) (fun _ => sampleOutside) k) = some t) :
    Delivery reloading (sampleStrategy version false) t sampleOutside := by
  obtain rfl := some.inj ((exec_deliveries hphase k).symm.trans ht)
  have hone := hdelivery (feed (deliver reloading (sampleStrategy version false)) s
    (fun _ => sampleOutside) k) (by
      cases k with
      | zero => exact .inl rfl
      | succ k => exact .inr (feed_of_fixed hfixed k))
  exact ⟨hone.1, hone.2, ⟨_, rfl, List.cons_ne_nil _ _⟩, rfl, _, rfl⟩

def registeredOnly : Syncer := stateAfter reloading [.registered 1]

/-- The sample daemon recovers when it has no worker yet. -/
theorem registeredOnly_recovers :
    Recovers reloading (sampleStrategy 1 false) registeredOnly fun _ => sampleOutside := by
  have hphase : ∃ failCount, registeredOnly.phase = .syncing failCount := ⟨0, rfl⟩
  refine (recovers_iff_recoverable ⟨[.registered 1], rfl⟩ hphase fun k t ht => ?_).mpr ?_
  · refine delivery_sample 1 hphase (by decide +kernel) ?_ k t ht
    rintro t (rfl | rfl)
    all_goals decide +kernel
  · refine .inr (.inl ⟨rfl, rfl, 0, ?_, rfl, fun _ => rfl⟩)
    exact fun k hk => absurd hk k.not_lt_zero

/-- The worker started for the first strategy, then it exited and was waited for. -/
def exitedWorker : Syncer :=
  stateAfter reloading [.registered 1, .strategy (.changed (sampleStrategy 1 false)) sampleOutside,
    .exits, .reaped]

/-- **A worker that exited by itself is never replaced** under the reload policy, though everything
succeeds. -/
theorem exitedWorker_not_recovers :
    Reached reloading exitedWorker ∧ (∃ failCount, exitedWorker.phase = .syncing failCount) ∧
      (∀ k t, exec (step reloading) exitedWorker
          (deliveries (sampleStrategy 2 false) (fun _ => sampleOutside) k) = some t →
        Delivery reloading (sampleStrategy 2 false) t sampleOutside) ∧
      ¬ Recovers reloading (sampleStrategy 2 false) exitedWorker fun _ => sampleOutside := by
  have hphase : ∃ failCount, exitedWorker.phase = .syncing failCount := ⟨0, rfl⟩
  have hdelivery : ∀ k t, exec (step reloading) exitedWorker
      (deliveries (sampleStrategy 2 false) (fun _ => sampleOutside) k) = some t →
      Delivery reloading (sampleStrategy 2 false) t sampleOutside := by
    refine fun k t => delivery_sample 2 hphase (by decide +kernel) ?_ k t
    rintro t (rfl | rfl)
    all_goals decide +kernel
  refine ⟨⟨[.registered 1, .strategy (.changed (sampleStrategy 1 false)) sampleOutside, .exits,
    .reaped], rfl⟩, hphase, hdelivery, ?_⟩
  apply not_recovers_of_gone rfl hphase ⟨rfl, _, rfl, by decide +kernel⟩
  exact fun k => hdelivery k _ (exec_deliveries hphase k)

end CloudProbe.Daemon
