import CloudProbe.Daemon.Fuse
import CloudProbe.Daemon.ManagerEnds
import CloudProbe.Lib.Runs

/-!
# The syncer

The daemon registers at CPM, then polls it for strategies, reports metrics and checks memory; it
goes back to registering when the polls fail.

* **The start gate** (`startGate`): asked by the manager, may trip the fuse.
* **Strategies** (`applyStrategy`): changed ones are applied, unchanged ones restart a dead worker
  or follow the virtual machines that came and went.
* **Registration** (`doRegister`, `registerFailed`): another daemon id, or a long failure, stops the
  worker.
* **The system** (`step`): one event at a time. `reports` and `trippedAs` only watch: what was
  reported under which id, and the id of the last trip.

Sources without a file are in `cpm/syncer.go`.
-/

namespace CloudProbe.Daemon

open Option

structure SyncerConfig where
  syncStrategyMaxRetries : ℤ
  stopWorkerAfterRegFailMinutes : ℤ
  memFuse : FuseConfig

/-- What is fixed while the syncer runs; its configurations have passed their checks.
Source: `NewSyncer` -/
structure SyncerSetup extends Setup where
  cfg : SyncerConfig
  fuseValid : cfg.memFuse.validate = .ok ()

/-- Source: `cpm/models.go` `SyncStrategyResult` -/
inductive SyncStrategyResult where
  | unchanged
  | changed (response : SyncStrategyResponse)
deriving DecidableEq

/-- Where `Run` is: in the register loop, in the sync loop with its count of failed polls, or
returned.
Source: `Run` -/
inductive Phase where
  | registering
  | syncing (syncStrategyFailCount : ℕ)
  | returned
deriving DecidableEq

/-- A metrics report as far as it is about the fuse; `takenAs` only watches and is the id under
which the last snapshot was taken.
Source: `memFuseEntry`, with the id it is sent for -/
structure FuseReport where
  daemonId : ℤ
  state : FuseState
  snap : Option Snapshot
  takenAs : Option ℤ
deriving DecidableEq

/-- The state of the syncer, with what it reported and the id under which the fuse tripped last.
Source: `Syncer`; of `regResp` the id is read -/
structure Syncer where
  phase : Phase := .registering
  cancelled : Bool := false
  mgr : WorkerManager := {}
  fuse : Fuse := .new
  regResp : Option ℤ := none
  syncResp : Option SyncStrategyResponse := none
  syncActiveInstances : List String := []
  workerCreateWarnings : List String := []
  bufferSizePerTask : UInt64 := 0
  trippedAs : Option ℤ := none
  reports : List FuseReport := []
deriving DecidableEq

/-- The startup check. Only an armed fuse reads memory, and a failed reading allows the start.
Source: `startGate` -/
def startGate (d : SyncerSetup) (o : Outside) : StartGate Fuse := fun alloc f =>
  match f.state with
  | .disabled => (true, f)
  | .tripped | .fused => (false, f)
  | .armed =>
    match o.memAvailable with
    | .error _ => (true, f)
    | .ok avail =>
      f.beforeStart d.cfg.memFuse
        { memAvailableMb := avail
          workerRssMb := if alloc.pid = 0 then 0 else o.processRss
          nicBufferCfgMb := alloc.totalCfgMb
          newNicBufferCfgMb := alloc.newCfgMb
          memLimitMb := alloc.memLimitMb } o.now

namespace Syncer

def follow (s : Syncer) (f : Fuse) : Syncer :=
  { s with
    fuse := f
    trippedAs := if s.fuse.state ≠ .tripped ∧ f.state = .tripped then s.regResp else s.trippedAs }

/-- The manager and the gate after an operation. -/
def take (s : Syncer) (applied : Applied Fuse) : Syncer :=
  { s with mgr := applied.mgr }.follow applied.gate

def resetSyncState (s : Syncer) : Syncer :=
  { s with syncResp := none, syncActiveInstances := [], workerCreateWarnings := [],
           bufferSizePerTask := 0 }

def stopWorker (s : Syncer) : Syncer := { s with mgr := s.mgr.stopWorker }

/-- Source: `syncMetric`, of its report the part about the fuse -/
def syncMetric (o : Outside) (s : Syncer) : Syncer :=
  match s.regResp with
  | none => s
  | some daemonId =>
    { s with
      reports := s.reports ++ [⟨daemonId, s.fuse.report.1, s.fuse.report.2, s.trippedAs⟩]
      fuse := if o.syncMetrics then s.fuse.onReportAck.2 else s.fuse }

def trip (o : Outside) (s : Syncer) : Syncer := s.stopWorker.syncMetric o

/-- Source: `activeInstancesIfRequired`; an error leaves no instances -/
def activeInstancesIfRequired (o : Outside) (resp : SyncStrategyResponse) : List String :=
  if resp.hasInstances then
    match o.host.getKvmInstances with
    | .ok instances => instances
    | .error _ => []
  else []

def fuseAllowsStrategy (o : Outside) (resp : SyncStrategyResponse) (s : Syncer) : Bool × Syncer :=
  let decided := s.fuse.onStrategy resp.memFuseEnabled resp.memFused
  let next := { s with fuse := decided.2 }
  if decided.1 ∨ s.fuse.state = .tripped ∨ s.fuse.state = .fused then (decided.1, next)
  else (false, if s.mgr.isAlive o matches .ok true then next.stopWorker else next)

/-- The syncer after an operation of the manager: a refusal of the gate finishes the trip, another
error changes nothing more.
Source: `refusedByFuse` and what its three callers do after it -/
def conclude (o : Outside) (applied : Applied Fuse) (refused : Syncer → Syncer)
    (succeeded : WorkerCreateResult → Syncer → Syncer) (s : Syncer) : Syncer :=
  let next := s.take applied
  match applied.result with
  | .error .startRefused => refused (next.trip o)
  | .error _ => next
  | .ok cr =>
    succeeded cr { next with workerCreateWarnings := cr.warnings,
                             bufferSizePerTask := cr.buffSizePerTask }

/-- Source: `applyStrategy`, of a changed strategy -/
def applyChanged (d : SyncerSetup) (o : Outside) (resp : SyncStrategyResponse) (s : Syncer) :
    Syncer :=
  let allowed := s.fuseAllowsStrategy o resp
  if allowed.1 then
    let activeInstances := activeInstancesIfRequired o resp
    let advance := fun s : Syncer =>
      { s with syncResp := some resp, syncActiveInstances := activeInstances }
    allowed.2.conclude o
      (allowed.2.mgr.update d.toSetup (startGate d o) o resp activeInstances allowed.2.fuse)
      advance fun _ => advance
  else { allowed.2 with syncResp := some resp }

/-- The instances of a strategy that exist differ from those at the last apply.
Source: `updateIfInstanceChanged`, its `needUpdate` -/
def needUpdate (resp : SyncStrategyResponse) (syncActiveInstances activeInstances : List String) :
    Bool :=
  resp.strategy.any fun strategy => strategy.instanceNames.any fun instanceName =>
    syncActiveInstances.contains instanceName != activeInstances.contains instanceName

def updateIfInstanceChanged (d : SyncerSetup) (o : Outside) (s : Syncer) : Syncer :=
  match s.syncResp, o.host.getKvmInstances with
  | some resp, .ok activeInstances =>
    if resp.hasInstances ∧ needUpdate resp s.syncActiveInstances activeInstances then
      s.conclude o (s.mgr.update d.toSetup (startGate d o) o resp activeInstances s.fuse) id
        fun _ s => { s with syncActiveInstances := activeInstances }
    else s
  | _, _ => s

/-- Source: `applyStrategy`, of an unchanged strategy -/
def applyUnchanged (d : SyncerSetup) (o : Outside) (s : Syncer) : Syncer :=
  if s.fuse.state = .tripped ∨ s.fuse.state = .fused then s
  else
    match s.mgr.isAlive o, s.syncResp with
    | .error _, _ => s
    | .ok false, some resp =>
      let activeInstances := activeInstancesIfRequired o resp
      if resp.numItems activeInstances = 0 then s
      else
        s.conclude o
          (s.mgr.createIfDead d.toSetup (startGate d o) o resp activeInstances s.fuse) id
          fun _ s => { s with syncActiveInstances := activeInstances }
    | .ok _, _ => s.updateIfInstanceChanged d o

def applyStrategy (d : SyncerSetup) (o : Outside) (res : SyncStrategyResult) (s : Syncer) :
    Syncer :=
  match res with
  | .unchanged => s.applyUnchanged d o
  | .changed resp => s.applyChanged d o resp

/-- Memory for the strategy that runs; a strategy that cannot be sized counts as nothing.
Source: `fuseReading` -/
def fuseReading (d : SyncerSetup) (o : Outside) (resp : SyncStrategyResponse) (s : Syncer) :
    Option Reading :=
  match o.memAvailable with
  | .error _ => none
  | .ok avail => some
      { memAvailableMb := avail
        workerRssMb := if s.mgr.isAlive o matches .ok true then o.processRss else 0
        nicBufferCfgMb :=
          match nicBufferTotalMb d.workerCfg.memory resp s.syncActiveInstances with
          | .ok total => total
          | .error _ => 0
        newNicBufferCfgMb := 0
        memLimitMb := resp.effectiveMemLimitMb d.workerCfg.memory.defaultLimitMb }

def onFuseTick (d : SyncerSetup) (o : Outside) (s : Syncer) : Syncer :=
  match s.syncResp with
  | none => s
  | some resp =>
    if s.fuse.state = .armed ∧ s.mgr.isAlive o matches .ok true then
      match s.fuseReading d o resp with
      | none => s
      | some r =>
        let checked := s.fuse.onCheck d.cfg.memFuse r o.now
        if checked.1 then (s.follow checked.2).trip o else s.follow checked.2
    else s

/-- A registration that succeeds. Another id than the one the stored strategy was delivered for
stops the worker and forgets everything.
Source: `doRegister` -/
def doRegister (daemonId : ℤ) (s : Syncer) : Syncer :=
  let next := { s with regResp := some daemonId }
  match s.syncResp with
  | none => next
  | some resp =>
    if daemonId = resp.daemonId then next
    else { next.stopWorker.resetSyncState with fuse := s.fuse.reset }

/-- A registration that fails; `elapsed` nanoseconds have passed in the register loop.
Source: `registerLoop` -/
def registerFailed (d : SyncerSetup) (elapsed : ℤ) (s : Syncer) : Syncer :=
  let mins := d.cfg.stopWorkerAfterRegFailMinutes
  if s.syncResp.isSome ∧ 0 ≤ mins ∧ mins * 60000000000 < elapsed then s.stopWorker.resetSyncState
  else s

/-- A poll that fails; `isCanceled`: by the cancellation of the context. After too many failures the
sync loop returns the error, and `Run` registers again or returns. Source: `syncLoop`, `Run` -/
def strategyFailed (d : SyncerSetup) (isCanceled : Bool) (failCount : ℕ) (s : Syncer) : Syncer :=
  if d.cfg.syncStrategyMaxRetries ≤ failCount then
    { s with phase := if isCanceled then .returned else .registering }
  else { s with phase := .syncing (failCount + 1) }

end Syncer

/-- What can happen. The last four are not the syncer's doing, but `done` is its loop taking the
cancellation from the context.
Source: `registerLoop`, `syncLoop` -/
inductive Event where
  | registered (daemonId : ℤ)
  | registerFailed (elapsed : ℤ)
  | strategy (res : SyncStrategyResult) (o : Outside)
  | strategyFailed (isCanceled : Bool)
  | metric (o : Outside)
  | fuseTick (o : Outside)
  | nicsChanged
  | done
  | exits
  | reaped
  | cancel

/-- One event; `none` when it cannot happen. A cancelled syncer may still take another event first.
Source: `Run`, `registerLoop`, `syncLoop` -/
def step (d : SyncerSetup) (s : Syncer) : Event → Option Syncer
  | .registered daemonId =>
    match s.phase with
    | .registering => some { s.doRegister daemonId with phase := .syncing 0 }
    | _ => none
  | .registerFailed elapsed =>
    match s.phase with
    | .registering => some (s.registerFailed d elapsed)
    | _ => none
  | .strategy res o =>
    match s.phase with
    | .syncing _ => some { s.applyStrategy d o res with phase := .syncing 0 }
    | _ => none
  | .strategyFailed isCanceled =>
    match s.phase with
    | .syncing failCount =>
      if isCanceled && !s.cancelled then none
      else some (s.strategyFailed d isCanceled failCount)
    | _ => none
  | .metric o =>
    match s.phase with
    | .syncing _ => some (s.syncMetric o)
    | _ => none
  | .fuseTick o =>
    match s.phase with
    | .syncing _ => some (s.onFuseTick d o)
    | _ => none
  | .nicsChanged =>
    match s.phase with
    | .syncing _ => some { s with phase := .registering }
    | _ => none
  | .done =>
    if !s.cancelled then none
    else match s.phase with
      | .registering => some { s with phase := .returned }
      | .syncing _ => some { s.stopWorker with phase := .returned }
      | .returned => none
  | .exits => some { s with mgr := { s.mgr with worker := s.mgr.worker.map Worker.exits } }
  | .reaped => some { s with mgr := { s.mgr with worker := s.mgr.worker.map Worker.reap } }
  | .cancel => some { s with cancelled := true }

def Reached (d : SyncerSetup) (s : Syncer) : Prop := ∃ es, Lib.exec (step d) {} es = some s

inductive Moves (d : SyncerSetup) (s : Syncer) : Event → Syncer → Prop
  | registered (daemonId : ℤ) (hphase : s.phase = .registering) :
      Moves d s (.registered daemonId) { s.doRegister daemonId with phase := .syncing 0 }
  | registerFailed (elapsed : ℤ) (hphase : s.phase = .registering) :
      Moves d s (.registerFailed elapsed) (s.registerFailed d elapsed)
  | strategy (failCount : ℕ) (res : SyncStrategyResult) (o : Outside)
      (hphase : s.phase = .syncing failCount) :
      Moves d s (.strategy res o) { s.applyStrategy d o res with phase := .syncing 0 }
  | strategyFailed (failCount : ℕ) (isCanceled : Bool) (hphase : s.phase = .syncing failCount)
      (hcanceled : isCanceled = true → s.cancelled = true) :
      Moves d s (.strategyFailed isCanceled) (s.strategyFailed d isCanceled failCount)
  | metric (failCount : ℕ) (o : Outside) (hphase : s.phase = .syncing failCount) :
      Moves d s (.metric o) (s.syncMetric o)
  | fuseTick (failCount : ℕ) (o : Outside) (hphase : s.phase = .syncing failCount) :
      Moves d s (.fuseTick o) (s.onFuseTick d o)
  | nicsChanged (failCount : ℕ) (hphase : s.phase = .syncing failCount) :
      Moves d s .nicsChanged { s with phase := .registering }
  | doneRegistering (hphase : s.phase = .registering) (hcancelled : s.cancelled = true) :
      Moves d s .done { s with phase := .returned }
  | doneSyncing (failCount : ℕ) (hphase : s.phase = .syncing failCount)
      (hcancelled : s.cancelled = true) : Moves d s .done { s.stopWorker with phase := .returned }
  | exits :
      Moves d s .exits { s with mgr := { s.mgr with worker := s.mgr.worker.map Worker.exits } }
  | reaped :
      Moves d s .reaped { s with mgr := { s.mgr with worker := s.mgr.worker.map Worker.reap } }
  | cancel : Moves d s .cancel { s with cancelled := true }

/-- Every event is one of the moves of the syncer. -/
theorem step_moves {d : SyncerSetup} {s s' : Syncer} {e : Event} (h : step d s e = some s') :
    Moves d s e s' := by
  unfold step at h
  cases e
  case exits | reaped | cancel => cases h; constructor
  all_goals cases hphase : s.phase <;> simp only [hphase, some.injEq, reduceCtorEq] at h
  case strategyFailed.syncing isCanceled failCount =>
    split_ifs at h with hcanceled
    cases h
    refine .strategyFailed failCount isCanceled hphase fun hc => ?_
    simpa [hc] using hcanceled
  case done.returned => split_ifs at h
  case done.registering | done.syncing =>
    split_ifs at h with hcancelled
    cases h
    constructor
    · exact hphase
    · simpa using hcancelled
  all_goals
    subst h
    constructor <;> assumption

/-! ## Invariants of the manager -/

section manager

variable {d : SyncerSetup} {P : WorkerManager → Prop}

/-- **What the syncer can do to the manager keeps `P`**: it stops the worker, applies a strategy
through the gate, or the process exits and is waited for. -/
structure KeptByMgr (d : SyncerSetup) (P : WorkerManager → Prop) : Prop where
  held : ∀ m, P m → m.Held
  stop : ∀ m, P m → P m.stopWorker
  exits : ∀ m, P m → P { m with worker := m.worker.map Worker.exits }
  reap : ∀ m, P m → P { m with worker := m.worker.map Worker.reap }
  apply : ∀ m o res activeInstances f applied, P m →
    WorkerManager.ApplyEnd d.toSetup o res (startGate d o) activeInstances m f applied →
    P applied.mgr

theorem Syncer.onFuseTick_cases (d : SyncerSetup) (o : Outside) (s : Syncer) :
    s.onFuseTick d o = s ∨
      ∃ r, s.fuse.state = .armed ∧
        s.onFuseTick d o =
          if (s.fuse.onCheck d.cfg.memFuse r o.now).1 then
            (s.follow (s.fuse.onCheck d.cfg.memFuse r o.now).2).trip o
          else s.follow (s.fuse.onCheck d.cfg.memFuse r o.now).2 := by
  unfold Syncer.onFuseTick
  cases hresp : s.syncResp with
  | none => exact .inl rfl
  | some resp =>
    simp only
    split_ifs with hcheck
    · cases hreading : s.fuseReading d o resp with
      | none => exact .inl rfl
      | some r => exact .inr ⟨r, hcheck.1, rfl⟩
    · exact .inl rfl

@[simp] theorem Syncer.mgr_syncMetric (o : Outside) (s : Syncer) :
    (s.syncMetric o).mgr = s.mgr := by
  unfold Syncer.syncMetric
  split <;> rfl

theorem Syncer.mgr_conclude {o : Outside} {applied : Applied Fuse} {refused : Syncer → Syncer}
    {succeeded : WorkerCreateResult → Syncer → Syncer} (hrefused : ∀ s, (refused s).mgr = s.mgr)
    (hsucceeded : ∀ cr s, (succeeded cr s).mgr = s.mgr) (s : Syncer) :
    (s.conclude o applied refused succeeded).mgr = applied.mgr ∨
      (s.conclude o applied refused succeeded).mgr = applied.mgr.stopWorker := by
  unfold Syncer.conclude
  simp only
  split
  · rw [hrefused, Syncer.trip, Syncer.mgr_syncMetric]
    exact .inr rfl
  · exact .inl rfl
  · rw [hsucceeded]
    exact .inl rfl

variable {s : Syncer}

/-- The end of an apply keeps what the manager's operations keep. -/
theorem KeptByMgr.conclude (h : KeptByMgr d P) {o : Outside} {res : SyncStrategyResponse}
    {activeInstances : List String} {f : Fuse} {applied : Applied Fuse} (hs : P s.mgr)
    (happly : WorkerManager.ApplyEnd d.toSetup o res (startGate d o) activeInstances s.mgr f
      applied) {refused : Syncer → Syncer} {succeeded : WorkerCreateResult → Syncer → Syncer}
    (hrefused : ∀ s, (refused s).mgr = s.mgr) (hsucceeded : ∀ cr s, (succeeded cr s).mgr = s.mgr) :
    P (s.conclude o applied refused succeeded).mgr := by
  have happlied := h.apply _ _ _ _ _ _ hs happly
  rcases Syncer.mgr_conclude hrefused hsucceeded s with heq | heq
  · rw [heq]
    exact happlied
  · rw [heq]
    exact h.stop _ happlied

theorem Syncer.mgr_fuseAllowsStrategy (o : Outside) (resp : SyncStrategyResponse) (s : Syncer) :
    (s.fuseAllowsStrategy o resp).2.mgr = s.mgr ∨
      (s.fuseAllowsStrategy o resp).2.mgr = s.mgr.stopWorker := by
  unfold Syncer.fuseAllowsStrategy
  simp only
  split
  · exact .inl rfl
  · split
    · exact .inr rfl
    · exact .inl rfl

/-- An answer of CPM keeps what the manager's operations keep. -/
theorem KeptByMgr.applyStrategy (h : KeptByMgr d P) (hs : P s.mgr) (o : Outside)
    (res : SyncStrategyResult) : P (s.applyStrategy d o res).mgr := by
  cases res with
  | changed resp =>
    have hallowed : P (s.fuseAllowsStrategy o resp).2.mgr := by
      rcases s.mgr_fuseAllowsStrategy o resp with heq | heq
      · rw [heq]
        exact hs
      · rw [heq]
        exact h.stop _ hs
    simp only [Syncer.applyStrategy, Syncer.applyChanged]
    split
    · apply h.conclude hallowed
      · exact WorkerManager.update_end (h.held _ hallowed) _
      · exact fun _ => rfl
      · exact fun _ _ => rfl
    · exact hallowed
  | unchanged =>
    have hupdate : P (s.updateIfInstanceChanged d o).mgr := by
      unfold Syncer.updateIfInstanceChanged
      split
      · split
        · apply h.conclude hs
          · exact WorkerManager.update_end (h.held _ hs) _
          · exact fun _ => rfl
          · exact fun _ _ => rfl
        · exact hs
      · exact hs
    simp only [Syncer.applyStrategy, Syncer.applyUnchanged]
    split
    · exact hs
    · split
      · exact hs
      · split
        · exact hs
        · apply h.conclude hs
          · exact WorkerManager.createIfDead_end _ _
          · exact fun _ => rfl
          · exact fun _ _ => rfl
      · exact hupdate

/-- **The rule for invariants of the manager.** What the operations on it keep holds after every
event. -/
theorem KeptByMgr.step (h : KeptByMgr d P) {s' : Syncer} {e : Event} (hs : P s.mgr)
    (hstep : step d s e = some s') : P s'.mgr := by
  cases step_moves hstep with
  | registered daemonId hphase =>
    simp only [Syncer.doRegister]
    split
    · exact hs
    · split
      · exact hs
      · exact h.stop _ hs
  | registerFailed elapsed hphase =>
    simp only [Syncer.registerFailed]
    split
    · exact h.stop _ hs
    · exact hs
  | strategy failCount res o hphase => exact h.applyStrategy hs o res
  | strategyFailed failCount isCanceled hphase hcanceled =>
    unfold Syncer.strategyFailed
    split <;> exact hs
  | metric failCount o hphase =>
    rw [Syncer.mgr_syncMetric]
    exact hs
  | fuseTick failCount o hphase =>
    rcases s.onFuseTick_cases d o with heq | ⟨r, -, heq⟩
    · rw [heq]
      exact hs
    · rw [heq]
      split
      · rw [Syncer.trip, Syncer.mgr_syncMetric]
        exact h.stop _ hs
      · exact hs
  | nicsChanged failCount hphase | doneRegistering hphase hcancelled | cancel => exact hs
  | doneSyncing failCount hphase hcancelled => exact h.stop _ hs
  | exits => exact h.exits _ hs
  | reaped => exact h.reap _ hs

theorem KeptByMgr.reached (h : KeptByMgr d P) (hinit : P {}) (hs : Reached d s) :
    P s.mgr := by
  obtain ⟨es, hes⟩ := hs
  apply Lib.exec_invariant (P := fun s : Syncer => P s.mgr) _ hinit hes
  intro s e s' hP hstep
  exact h.step hP hstep

theorem sound_kept : KeptByMgr d WorkerManager.Sound where
  held := fun _ h => h.held
  stop := fun _ h => h.stopWorker
  exits := fun m h => ⟨fun hw => h.held (by rwa [isSome_map] at hw), h.noneLost⟩
  reap := fun m h => ⟨fun hw => h.held (by rwa [isSome_map] at hw), h.noneLost⟩
  apply := fun _ _ _ _ _ _ h hend => h.apply hend

theorem Reached.sound (hs : Reached d s) : s.mgr.Sound :=
  sound_kept.reached (.of_none rfl rfl) hs

end manager

/-! ## A small daemon

One strategy with one interface and a ZMQ output, on a host where everything succeeds. The
fingerprint is the real one of its task. -/

def sampleConfig (updatePolicy : UpdatePolicy) : WorkerConfig where
  configFile := "/etc/cpworker.json"
  cpuAffinity := ""
  logLevel := "INFO"
  control := .unix (some "/run/cpworker.sock")
  executionModel := .rtc
  minBufferSizeMb := 0
  updatePolicy := updatePolicy
  memory := ⟨.fixedNicBuffer, 1024, 64⟩

def sampleDaemon (updatePolicy : UpdatePolicy) (h : (sampleConfig updatePolicy).validate = .ok ()) :
    SyncerSetup where
  workerCfg := sampleConfig updatePolicy
  packages := ⟨fun _ => ({}, none), fun _ => "32303737-6439-3636-3831-333433343037"⟩
  daemonUUID := "6f9619ff-8b86-4d01-b42d-00cf4fc964ff"
  valid := h
  cfg := ⟨3, 5, ⟨1000000000, 2, 256⟩⟩
  fuseValid := rfl

def sampleOutside : Outside where
  host := ⟨fun _ => .error "no such container", .ok [], fun _ => .ok [], fun _ => none⟩
  writeConfig := .ok
  startProcess := .ok 100
  cgroup := none
  reloadCommand := .ok
  signal := none
  memAvailable := .ok 4096
  processRss := 0
  now := 0
  syncMetrics := true

def sampleStrategy (version : Int32) (memFuseEnabled : Bool) : SyncStrategyResponse where
  daemonId := 1
  version := version
  strategy := [{ interfaceNames := ["eth0"], packetChannelType := .zmq, address := "10.0.0.1",
                 port := some 5555 }]
  memFuseEnabled := memFuseEnabled

/-- The state after some events, the initial one when they cannot happen. -/
def stateAfter (d : SyncerSetup) (es : List Event) : Syncer := (Lib.exec (step d) {} es).getD {}

end CloudProbe.Daemon
