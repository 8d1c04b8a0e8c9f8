import CloudProbe.Daemon.FuseEvents

/-!
# The fuse keeps the worker down, and reports under its own id

Two machines meet here: the manager, which starts workers on three paths, and the fuse, which may
trip inside the gate while such a path is taken. A long registration failure forgets the stored
strategy, and with it the reason to reset the fuse (`report_of_other_id`).
-/

namespace CloudProbe.Daemon

open Lib

variable {d : SyncerSetup} {s t : Syncer} {e : Event}

/-! ## No worker under a blown fuse -/

/-- The manager's `IsAlive` returns no error at this event. -/
def IsAliveAnswers (s : Syncer) : Event → Prop
  | .strategy _ o | .metric o | .fuseTick o => (s.mgr.isAlive o).toBool = true
  | _ => True

instance (s : Syncer) : (e : Event) → Decidable (IsAliveAnswers s e)
  | .strategy _ o | .metric o | .fuseTick o =>
    inferInstanceAs (Decidable ((s.mgr.isAlive o).toBool = true))
  | .registered _ | .registerFailed _ | .strategyFailed _ | .nicsChanged | .done | .exits | .reaped
  | .cancel => isTrue trivial

/-- The events that release a blown fuse: a changed strategy that is not fused while CPM has the
fuse on record, and a registration that resets everything. -/
def Releases (s : Syncer) : Event → Prop
  | .strategy (.changed resp) _ => s.fuse.state = .fused ∧ resp.memFused = false
  | .registered daemonId => s.syncResp.any (daemonId ≠ ·.daemonId) = true
  | _ => False

instance (s : Syncer) : (e : Event) → Decidable (Releases s e)
  | .strategy (.changed _) _ => inferInstanceAs (Decidable (_ ∧ _))
  | .registered _ => inferInstanceAs (Decidable (_ = true))
  | .strategy .unchanged _ | .registerFailed _ | .strategyFailed _ | .metric _ | .fuseTick _
  | .nicsChanged | .done | .exits | .reaped | .cancel => isFalse id

def KeepsDown (s : Syncer) : Prop := s.fuse.Blown → ¬ s.mgr.Alive

theorem WorkerManager.not_alive_stopWorker {m : WorkerManager} (h : m.Sound) :
    ¬ m.stopWorker.Alive := by
  unfold WorkerManager.Alive WorkerManager.process?
  simp [h.noneLost]

variable {o : Outside} {f : Fuse} {v : FuseView}

theorem WorkerManager.not_alive_of_isAlive {m : WorkerManager} (h : m.Sound)
    (hdead : m.isAlive o = .ok false) : ¬ m.Alive := by
  unfold WorkerManager.isAlive at hdead
  unfold WorkerManager.Alive WorkerManager.process?
  rcases hworker : m.worker with _ | w
  · simp [h.noneLost]
  · rw [hworker] at hdead
    rcases hcmd : w.cmd with _ | process
    · simp [h.noneLost, hcmd]
    · exfalso
      rcases Worker.isAlive_of_ne_none (by rw [hcmd]; exact Option.some_ne_none _) o with
        halive | ⟨err, halive⟩
      all_goals exact absurd (halive.symm.trans hdead) (by simp)

/-- No way of an apply to end leaves a worker under a blown fuse. -/
theorem FuseEnd.keepsDown (h : FuseEnd d o s t) (hsound : s.mgr.Sound) (hdown : KeepsDown s)
    (hanswers : (s.mgr.isAlive o).toBool = true) : KeepsDown t := by
  intro hblown
  cases h with
  | kept hview hmgr =>
    have hfuse : t.fuse = s.fuse := congrArg FuseView.fuse hview
    rw [hfuse] at hblown
    rw [hmgr hblown]
    exact hdown hblown
  | answered enabled fused hview hmgr =>
    have hfuse : t.fuse = _ := congrArg FuseView.fuse hview
    rw [hfuse] at hblown
    rcases hmgr hblown with ⟨hbefore, heq⟩ | ⟨-, ⟨-, heq⟩ | ⟨hdead, heq⟩⟩
    · rw [heq]
      exact hdown hbefore
    · rw [heq]
      exact WorkerManager.not_alive_stopWorker hsound
    · rw [heq]
      apply WorkerManager.not_alive_of_isAlive hsound (o := o)
      rcases hres : s.mgr.isAlive o with err | alive
      · rw [hres] at hanswers
        cases hanswers
      · rw [hres] at hdead
        match alive with
        | true => exact absurd rfl hdead
        | false => rfl
  | checked r harmed hstays hview =>
    have hfuse : t.fuse = _ := congrArg FuseView.fuse hview
    rw [hfuse] at hblown
    unfold Fuse.Blown at hblown
    rw [hstays] at hblown
    exact absurd hblown (by simp)
  | tripped f c hf htrips hview hmgr =>
    rw [hmgr]
    exact WorkerManager.not_alive_stopWorker hsound

theorem WorkerManager.Alive.of_map {m : WorkerManager} {g : Worker → Worker}
    (hg : ∀ w : Worker, (g w).cmd.filter (·.running) = none ∨ (g w).cmd = w.cmd)
    (h : { m with worker := m.worker.map g }.Alive) : m.Alive := by
  unfold WorkerManager.Alive WorkerManager.process? at h ⊢
  refine h.imp_left fun hsome => ?_
  rcases hworker : m.worker with _ | w
  · simp [hworker] at hsome
  · simp only [hworker, Option.map_some, Option.bind_some] at hsome ⊢
    rcases hg w with hnone | hsame
    · rw [hnone] at hsome
      cases hsome
    · rwa [hsame] at hsome

/-- **The step lemma**: no event lets a worker live under a blown fuse. -/
theorem KeepsDown.step (hdown : KeepsDown s) (hsound : s.mgr.Sound) (hanswers : IsAliveAnswers s e)
    (hstep : step d s e = some t) : KeepsDown t := by
  cases step_moves hstep with
  | registered daemonId hphase =>
    unfold KeepsDown
    simp only [Syncer.doRegister]
    split
    · exact hdown
    · split
      · exact hdown
      · exact fun hblown => absurd hblown (by simp [Fuse.Blown, Fuse.reset])
  | registerFailed elapsed hphase =>
    unfold Syncer.registerFailed
    simp only
    split
    · exact fun _ => WorkerManager.not_alive_stopWorker hsound
    · exact hdown
  | strategy failCount res o hphase =>
    exact (Syncer.applyStrategy_end (o := o) hsound.held res).keepsDown hsound hdown hanswers
  | strategyFailed failCount isCanceled hphase hcanceled =>
    unfold Syncer.strategyFailed
    split <;> exact hdown
  | metric failCount o hphase =>
    intro hblown
    have hfuse : (s.syncMetric o).fuse = _ := congrArg FuseView.fuse (s.view_syncMetric o)
    rw [hfuse, FuseView.blown_syncMetric] at hblown
    rw [Syncer.mgr_syncMetric]
    exact hdown hblown
  | fuseTick failCount o hphase =>
    exact (Syncer.onFuseTick_end (o := o)).keepsDown hsound hdown hanswers
  | nicsChanged failCount hphase | doneRegistering hphase hcancelled | cancel => exact hdown
  | doneSyncing failCount hphase hcancelled =>
    exact fun _ => WorkerManager.not_alive_stopWorker hsound
  | exits =>
    refine fun hblown halive => hdown hblown (.of_map (fun w => .inl ?_) halive)
    unfold Worker.exits
    rcases w.cmd with _ | process <;> simp
  | reaped =>
    refine fun hblown halive => hdown hblown (.of_map (fun w => ?_) halive)
    unfold Worker.reap
    rcases hcmd : w.cmd with _ | process
    · exact .inl rfl
    · rcases hrunning : process.running with _ | _
      · exact .inl (by simp [hrunning])
      · exact .inr (by simp [hrunning])

/-- An end that leaves the fuse blown has started nothing. -/
theorem FuseEnd.starts (h : FuseEnd d o s t) (hblown : t.fuse.Blown) :
    t.mgr.starts = s.mgr.starts := by
  cases h with
  | kept hview hmgr =>
    have hfuse : t.fuse = s.fuse := congrArg FuseView.fuse hview
    rw [hfuse] at hblown
    rw [hmgr hblown]
  | answered enabled fused hview hmgr =>
    have hfuse : t.fuse = _ := congrArg FuseView.fuse hview
    rw [hfuse] at hblown
    rcases hmgr hblown with ⟨-, heq⟩ | ⟨-, ⟨-, heq⟩ | ⟨-, heq⟩⟩
    · rw [heq]
    · rw [heq, WorkerManager.stopWorker_starts]
    · rw [heq]
  | checked r harmed hstays hview =>
    have hfuse : t.fuse = _ := congrArg FuseView.fuse hview
    unfold Fuse.Blown at hblown
    rw [hfuse, hstays] at hblown
    exact absurd hblown (by simp)
  | tripped f c hf htrips hview hmgr => rw [hmgr, WorkerManager.stopWorker_starts]

/-- An event that leaves the fuse blown starts no process. -/
theorem step_starts (hheld : s.mgr.Held) (hstep : step d s e = some t) (hblown : t.fuse.Blown) :
    t.mgr.starts = s.mgr.starts := by
  cases step_moves hstep with
  | registered daemonId hphase =>
    simp only [Syncer.doRegister]
    split
    · rfl
    · split
      · rfl
      · exact WorkerManager.stopWorker_starts _
  | registerFailed elapsed hphase =>
    unfold Syncer.registerFailed
    simp only
    split
    · exact WorkerManager.stopWorker_starts _
    · rfl
  | strategy failCount res o hphase =>
    exact (Syncer.applyStrategy_end (o := o) hheld res).starts hblown
  | strategyFailed failCount isCanceled hphase hcanceled =>
    unfold Syncer.strategyFailed
    split <;> rfl
  | metric failCount o hphase => rw [Syncer.mgr_syncMetric]
  | fuseTick failCount o hphase => exact (Syncer.onFuseTick_end (o := o)).starts hblown
  | doneSyncing failCount hphase hcancelled => exact WorkerManager.stopWorker_starts _
  | nicsChanged | doneRegistering | exits | reaped | cancel => rfl

theorem Fuse.Blown.not_accepted (h : f.Blown) {enabled fused : Bool}
    (hrelease : ¬ (f.state = .fused ∧ fused = false)) : (f.onStrategy enabled fused).1 = false := by
  unfold Fuse.onStrategy
  rcases h with hstate | hstate
  · simp [hstate]
  · cases fused with
    | true => simp [hstate]
    | false => exact absurd ⟨hstate, rfl⟩ hrelease

theorem Syncer.fuse_applyChanged {resp : SyncStrategyResponse}
    (hrefused : (s.fuse.onStrategy resp.memFuseEnabled resp.memFused).1 = false) :
    (s.applyChanged d o resp).fuse = (s.fuse.onStrategy resp.memFuseEnabled resp.memFused).2 := by
  unfold Syncer.applyChanged Syncer.fuseAllowsStrategy
  simp only [hrefused, Bool.false_eq_true, false_or]
  split
  · rfl
  · split <;> rfl

/-- A blown fuse stays blown unless the event releases it. -/
theorem step_blown (hblown : s.fuse.Blown) (hrelease : ¬ Releases s e)
    (hstep : step d s e = some t) : t.fuse.Blown := by
  cases step_moves hstep with
  | registered daemonId hphase =>
    unfold Releases at hrelease
    simp only [Syncer.doRegister]
    rcases hresp : s.syncResp with _ | resp
    · exact hblown
    · rw [hresp] at hrelease
      have hsame : daemonId = resp.daemonId := by simpa using hrelease
      simp only [hsame, if_true]
      exact hblown
  | registerFailed elapsed hphase =>
    unfold Syncer.registerFailed
    simp only
    split <;> exact hblown
  | strategy failCount res o hphase =>
    cases res with
    | unchanged =>
      have hsame : s.applyUnchanged d o = s := if_pos hblown
      show (s.applyUnchanged d o).fuse.Blown
      rw [hsame]
      exact hblown
    | changed resp =>
      have hrefused : (s.fuse.onStrategy resp.memFuseEnabled resp.memFused).1 = false :=
        hblown.not_accepted hrelease
      show (s.applyChanged d o resp).fuse.Blown
      rw [Syncer.fuse_applyChanged hrefused]
      exact Fuse.blown_of_not_accepted hrefused
  | strategyFailed failCount isCanceled hphase hcanceled =>
    unfold Syncer.strategyFailed
    split <;> exact hblown
  | metric failCount o hphase =>
    have hfuse : (s.syncMetric o).fuse = _ := congrArg FuseView.fuse (s.view_syncMetric o)
    rw [hfuse, FuseView.blown_syncMetric]
    exact hblown
  | fuseTick failCount o hphase =>
    rcases s.onFuseTick_cases d o with heq | ⟨r, harmed, -⟩
    · rw [heq]
      exact hblown
    · rcases hblown with h | h <;> rw [h] at harmed <;> cases harmed
  | nicsChanged | doneRegistering | doneSyncing | exits | reaped | cancel => exact hblown

/-- **The fuse keeps the worker down.** After an event that leaves the fuse tripped or fused no
worker is alive, and none is started until the fuse is released. -/
theorem fuse_keeps_worker_down {es : List Event} (hrun : exec (step d) {} es = some s)
    (hanswers : Guarded (step d) IsAliveAnswers {} es) :
    (s.fuse.Blown → ¬ s.mgr.Alive) ∧
      (∀ e t, step d s e = some t → t.fuse.Blown → t.mgr.starts = s.mgr.starts) ∧
      ∀ es' t, s.fuse.Blown → exec (step d) s es' = some t →
        Guarded (step d) (fun s e => ¬ Releases s e) s es' →
        t.fuse.Blown ∧ t.mgr.starts = s.mgr.starts := by
  have hsound : s.mgr.Sound := Reached.sound ⟨es, hrun⟩
  refine ⟨?_, ?_, ?_⟩
  · have hboth : s.mgr.Sound ∧ KeepsDown s := by
      apply exec_invariant_of_guard (P := fun s : Syncer => s.mgr.Sound ∧ KeepsDown s) _
        ⟨.of_none rfl rfl, ?_⟩ hanswers hrun
      · intro s e s' hP hG hstep
        exact ⟨sound_kept.step hP.1 hstep, hP.2.step hP.1 hG hstep⟩
      · exact fun hblown => absurd hblown (by simp [Fuse.Blown])
    exact hboth.2
  · exact fun e t hstep hblown => step_starts hsound.held hstep hblown
  · intro es' t hblown hrun' hkept
    have hall : t.mgr.Sound ∧ t.fuse.Blown ∧ t.mgr.starts = s.mgr.starts := by
      apply exec_invariant_of_guard
        (P := fun u : Syncer => u.mgr.Sound ∧ u.fuse.Blown ∧ u.mgr.starts = s.mgr.starts) _
        ⟨hsound, hblown, rfl⟩ hkept hrun'
      intro u e u' hP hG hstep
      have hblown' := step_blown hP.2.1 hG hstep
      exact ⟨sound_kept.step hP.1 hstep, hblown',
        (step_starts hP.1.held hstep hblown').trans hP.2.2⟩
    exact hall.2

def restarting : SyncerSetup := sampleDaemon .restart rfl

def shortOfMemory : Outside := { sampleOutside with memAvailable := .ok 100 }

def twoFailedChecks : List Event :=
  [.registered 1, .strategy (.changed (sampleStrategy 1 true)) sampleOutside,
    .fuseTick shortOfMemory, .fuseTick shortOfMemory]

/-- After two failed checks the worker is killed, and not started again. -/
theorem fuse_keeps_worker_down_two_checks :
    (stateAfter restarting twoFailedChecks).fuse.state = .fused ∧
      ¬ (stateAfter restarting twoFailedChecks).mgr.Alive ∧
      ∀ t, exec (step restarting) (stateAfter restarting twoFailedChecks)
        [.strategy .unchanged sampleOutside] = some t → t.mgr.starts = 1 := by
  have hrun : exec (step restarting) {} twoFailedChecks =
      some (stateAfter restarting twoFailedChecks) := by decide +kernel
  have hanswers : Guarded (step restarting) IsAliveAnswers {} twoFailedChecks := by decide +kernel
  obtain ⟨hdown, -, hstarts⟩ := fuse_keeps_worker_down hrun hanswers
  have hblown : (stateAfter restarting twoFailedChecks).fuse.Blown := by decide +kernel
  refine ⟨by decide +kernel, hdown hblown, fun t ht => ?_⟩
  rw [(hstarts _ t hblown ht (by decide +kernel)).2]
  decide +kernel

/-! ## Reports -/

/-- What was reported with a snapshot was reported under the id of the trip, and a snapshot that the
fuse still has was taken under the current id. -/
structure FuseView.Own (v : FuseView) : Prop where
  reports : ∀ r ∈ v.reports, r.snap ≠ none → r.takenAs = some r.daemonId
  snap : v.fuse.snap ≠ none → v.trippedAs = v.regResp

theorem FuseView.Own.fuse (h : v.Own) (hsnap : f.snap ≠ none → v.fuse.snap ≠ none) :
    FuseView.Own { v with fuse := f } :=
  ⟨h.reports, fun hf => h.snap (hsnap hf)⟩

theorem FuseView.Own.follow (h : v.Own) (htrips : v.fuse.state ≠ .tripped ∧ f.state = .tripped) :
    (v.follow f).Own := by
  refine ⟨h.reports, fun _ => ?_⟩
  unfold FuseView.follow
  exact if_pos htrips

theorem FuseView.Own.syncMetric (h : v.Own) (o : Outside) :
    (v.syncMetric o).Own := by
  unfold FuseView.syncMetric
  rcases hid : v.regResp with _ | daemonId
  · exact h
  · refine ⟨?_, ?_⟩
    · intro r hr hsnap
      rcases List.mem_append.mp hr with hr | hr
      · exact h.reports r hr hsnap
      · obtain rfl := List.mem_singleton.mp hr
        rw [← hid]
        apply h.snap
        intro hnone
        apply hsnap
        unfold Fuse.report
        simp only [hnone]
        split <;> rfl
    · intro hsnap
      show v.trippedAs = some daemonId
      rw [← hid]
      apply h.snap
      simp only at hsnap
      split at hsnap
      · unfold Fuse.onReportAck at hsnap
        split at hsnap <;> exact hsnap
      · exact hsnap

theorem Fuse.snap_onStrategy {enabled fused : Bool} (h : (f.onStrategy enabled fused).2.snap ≠ none)
    : f.snap ≠ none := by
  unfold Fuse.onStrategy at h
  simp only at h
  split at h
  · exact h
  · split at h
    · exact h
    · exact absurd rfl h

theorem Fuse.snap_onCheck {cfg : FuseConfig} {r : Reading} {now : ℤ}
    (hstays : (f.onCheck cfg r now).2.state = .armed) : (f.onCheck cfg r now).2.snap = f.snap := by
  have hmove : FuseMove cfg f (.onCheck r now) (some (f.onCheck cfg r now).1)
      (f.onCheck cfg r now).2 :=
    f.onCheck_move r now
  generalize (f.onCheck cfg r now).2 = f' at hmove hstays ⊢
  generalize some (f.onCheck cfg r now).1 = answer at hmove
  cases hmove with
  | checkIgnored | checkPassed | checkHit => rfl
  | checkTripped => cases hstays

theorem FuseEnd.own (h : FuseEnd d o s t) (hown : s.view.Own) : t.view.Own := by
  cases h with
  | kept hview => rwa [hview]
  | answered enabled fused hview =>
    rw [hview]
    exact hown.fuse Fuse.snap_onStrategy
  | checked r harmed hstays hview =>
    rw [hview]
    apply hown.fuse
    rw [Fuse.snap_onCheck hstays]
    exact id
  | tripped f c hf htrips hview =>
    have hfirst : FuseView.Own { s.view with fuse := f } := by
      rcases hf with rfl | ⟨enabled, fused, rfl⟩
      · exact hown
      · exact hown.fuse Fuse.snap_onStrategy
    rw [hview]
    exact (hfirst.follow htrips).syncMetric o

/-- A registration under another id while the fuse is blown finds a stored strategy of another id
than the new one. -/
def ResetsOnChange (s : Syncer) : Event → Prop
  | .registered daemonId =>
    s.fuse.Blown → s.regResp ≠ some daemonId → s.syncResp.any (daemonId ≠ ·.daemonId) = true
  | _ => True

instance (s : Syncer) : (e : Event) → Decidable (ResetsOnChange s e)
  | .registered _ => inferInstanceAs (Decidable (s.fuse.Blown → _ → _))
  | .strategy _ _ | .registerFailed _ | .strategyFailed _ | .metric _ | .fuseTick _ | .nicsChanged
  | .done | .exits | .reaped | .cancel => isTrue trivial

/-- **The step lemma** for the id a snapshot is reported under. -/
theorem own_step (hs : Reached d s) (hown : s.view.Own) (hresets : ResetsOnChange s e)
    (hstep : step d s e = some t) : t.view.Own := by
  cases step_moves hstep with
  | registered daemonId hphase =>
    have hkept : s.syncResp.any (daemonId ≠ ·.daemonId) = false →
        FuseView.Own { s.view with regResp := some daemonId } := by
      intro hnone
      refine ⟨hown.reports, fun hsnap => ?_⟩
      by_cases hsame : s.regResp = some daemonId
      · exact (hown.snap hsnap).trans hsame
      · have hany := hresets (hs.blown_of_snap hsnap) hsame
        rw [hnone] at hany
        cases hany
    simp only [Syncer.doRegister]
    rcases hresp : s.syncResp with _ | resp
    · exact hkept (by rw [hresp]; rfl)
    · by_cases hid : daemonId = resp.daemonId
      · simp only [if_pos hid]
        exact hkept (by rw [hresp]; simp [hid])
      · simp only [if_neg hid]
        exact ⟨hown.reports, fun hsnap => absurd rfl hsnap⟩
  | registerFailed elapsed hphase =>
    unfold Syncer.registerFailed
    simp only
    split <;> exact hown
  | strategy failCount res o hphase =>
    exact (Syncer.applyStrategy_end (o := o) hs.sound.held res).own hown
  | strategyFailed failCount isCanceled hphase hcanceled =>
    unfold Syncer.strategyFailed
    split <;> exact hown
  | metric failCount o hphase =>
    rw [Syncer.view_syncMetric]
    exact hown.syncMetric o
  | fuseTick failCount o hphase => exact (Syncer.onFuseTick_end (o := o)).own hown
  | nicsChanged | doneRegistering | doneSyncing | exits | reaped | cancel => exact hown

/-- **Reports belong to the daemon they tripped under**, when registrations under another id find a
stored strategy while the fuse is blown. -/
theorem reports_own_trips {es : List Event} (hrun : exec (step d) {} es = some s)
    (hresets : Guarded (step d) ResetsOnChange {} es) :
    (∀ r ∈ s.reports, r.snap ≠ none → r.takenAs = some r.daemonId) ∧
      ∀ daemonId t, step d s (.registered daemonId) = some t → s.regResp ≠ some daemonId →
        (¬ t.fuse.Blown ↔ ResetsOnChange s (.registered daemonId)) := by
  refine ⟨?_, ?_⟩
  · have hboth : Reached d s ∧ s.view.Own := by
      apply exec_invariant_of_guard (P := fun s : Syncer => Reached d s ∧ s.view.Own) _
        ⟨⟨[], rfl⟩, ?_, ?_⟩ hresets hrun
      · intro s e s' hP hG hstep
        exact ⟨hP.1.step hstep, own_step hP.1 hP.2 hG hstep⟩
      · exact fun r hr => absurd hr List.not_mem_nil
      · exact fun hsnap => absurd rfl hsnap
    exact hboth.2.reports
  · intro daemonId t hstep hother
    cases step_moves hstep with
    | registered daemonId hphase =>
      unfold ResetsOnChange
      simp only [Syncer.doRegister]
      rcases hresp : s.syncResp with _ | resp
      · simp [hother]
      · by_cases hid : daemonId = resp.daemonId
        · simp [hid, hid ▸ hother]
        · simp [hid, Fuse.Blown, Fuse.reset]

/-- The fuse trips at the first strategy; then the daemon registers again, under another id. -/
def trippedThenRenamed : List Event :=
  [.registered 1, .strategy (.changed (sampleStrategy 1 true)) shortOfMemory, .nicsChanged,
    .registered 2, .metric sampleOutside]

/-- The trip was reported under the first id, and is not reported under the second one. -/
theorem reports_own_trips_renamed :
    (stateAfter restarting trippedThenRenamed).reports.map FuseReport.daemonId = [1, 2] ∧
      ∀ r ∈ (stateAfter restarting trippedThenRenamed).reports, r.snap ≠ none →
        r.takenAs = some r.daemonId := by
  have hrun : exec (step restarting) {} trippedThenRenamed =
      some (stateAfter restarting trippedThenRenamed) := by decide +kernel
  have hresets : Guarded (step restarting) ResetsOnChange {} trippedThenRenamed := by decide +kernel
  exact ⟨by decide +kernel, (reports_own_trips hrun hresets).1⟩

/-- The same, but the registration fails for more than five minutes before it succeeds. -/
def trippedThenLost : List Event :=
  [.registered 1, .strategy (.changed (sampleStrategy 1 true)) shortOfMemory, .nicsChanged,
    .registerFailed 300000000001, .registered 2, .metric sampleOutside]

/-- **A snapshot is reported under another id**: the long failure forgot the stored strategy. -/
theorem report_of_other_id :
    exec (step restarting) {} trippedThenLost = some (stateAfter restarting trippedThenLost) ∧
      ∃ r ∈ (stateAfter restarting trippedThenLost).reports,
        r.daemonId = 2 ∧ r.state = .fused ∧ r.snap ≠ none ∧ r.takenAs = some 1 := by
  decide +kernel

end CloudProbe.Daemon
