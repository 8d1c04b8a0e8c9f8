import CloudProbe.Daemon.FuseSpec
import CloudProbe.Daemon.Syncer

/-!
# What the events of the syncer do to the fuse

The fuse of the syncer is driven by its methods only, so everything known of the fuse holds of it
(`Reached.fuse_calls`). An event leaves the fuse alone, answers a strategy, counts a check, or trips
it (`FuseEnd`); a trip kills the worker and is reported.
-/

namespace CloudProbe.Daemon

open Lib

/-- The fuse tripped, or CPM has it on record as fused. -/
def Fuse.Blown (f : Fuse) : Prop := f.state = .tripped ∨ f.state = .fused

instance (f : Fuse) : Decidable f.Blown := inferInstanceAs (Decidable (_ ∨ _))

@[simp] theorem Fuse.blown_onReportAck (f : Fuse) : f.onReportAck.2.Blown ↔ f.Blown := by
  unfold Fuse.onReportAck
  split_ifs with hstate
  · rfl
  · exact ⟨fun _ => .inl (not_not.mp hstate), fun _ => .inr rfl⟩

/-! ## The view -/

/-- What the syncer keeps about its fuse. -/
structure FuseView where
  fuse : Fuse
  regResp : Option ℤ
  trippedAs : Option ℤ
  reports : List FuseReport

def Syncer.view (s : Syncer) : FuseView := ⟨s.fuse, s.regResp, s.trippedAs, s.reports⟩

namespace FuseView

def follow (v : FuseView) (f : Fuse) : FuseView :=
  { v with
    fuse := f
    trippedAs := if v.fuse.state ≠ .tripped ∧ f.state = .tripped then v.regResp else v.trippedAs }

def syncMetric (o : Outside) (v : FuseView) : FuseView :=
  match v.regResp with
  | none => v
  | some daemonId =>
    { v with
      reports := v.reports ++ [⟨daemonId, v.fuse.report.1, v.fuse.report.2, v.trippedAs⟩]
      fuse := if o.syncMetrics then v.fuse.onReportAck.2 else v.fuse }

theorem blown_syncMetric (o : Outside) (v : FuseView) :
    (v.syncMetric o).fuse.Blown ↔ v.fuse.Blown := by
  unfold syncMetric
  split
  · rfl
  · simp only
    split
    · exact v.fuse.blown_onReportAck
    · rfl

end FuseView

@[simp] theorem Syncer.view_syncMetric (o : Outside) (s : Syncer) :
    (s.syncMetric o).view = s.view.syncMetric o := by
  obtain ⟨phase, cancelled, mgr, fuse, regResp, syncResp, instances, warnings, size, trippedAs,
    reports⟩ := s
  cases regResp <;> rfl

theorem Syncer.view_trip (o : Outside) (s : Syncer) : (s.trip o).view = s.view.syncMetric o := by
  unfold Syncer.trip
  rw [Syncer.view_syncMetric]
  rfl

/-! ## Strategies and ticks -/

section ends

variable (d : SyncerSetup) (o : Outside) (s : Syncer)

/-- What a strategy or a tick leads to, as far as the fuse is concerned. -/
inductive FuseEnd : Syncer → Prop
  | kept (t : Syncer) (hview : t.view = s.view) (hmgr : s.fuse.Blown → t.mgr = s.mgr) : FuseEnd t
  | answered (t : Syncer) (enabled fused : Bool)
      (hview : t.view = { s.view with fuse := (s.fuse.onStrategy enabled fused).2 })
      (hmgr : (s.fuse.onStrategy enabled fused).2.Blown →
        s.fuse.Blown ∧ t.mgr = s.mgr ∨
          ¬ s.fuse.Blown ∧ (s.mgr.isAlive o = .ok true ∧ t.mgr = s.mgr.stopWorker ∨
            s.mgr.isAlive o ≠ .ok true ∧ t.mgr = s.mgr)) : FuseEnd t
  | checked (t : Syncer) (r : Reading) (harmed : s.fuse.state = .armed)
      (hstays : (s.fuse.onCheck d.cfg.memFuse r o.now).2.state = .armed)
      (hview : t.view = { s.view with fuse := (s.fuse.onCheck d.cfg.memFuse r o.now).2 }) :
      FuseEnd t
  | tripped (t : Syncer) (f : Fuse) (c : FuseCall)
      (hf : f = s.fuse ∨ ∃ enabled fused, f = (s.fuse.onStrategy enabled fused).2)
      (htrips : f.Trips d.cfg.memFuse c)
      (hview : t.view =
        ({ s.view with fuse := f }.follow (f.call d.cfg.memFuse c).2).syncMetric o)
      (hmgr : t.mgr = s.mgr.stopWorker) : FuseEnd t

variable {d o s}

variable {f : Fuse}

/-- The gate lets the start through, or trips the fuse. -/
theorem startGate_cases (hf : ¬ f.Blown) (alloc : RingAlloc) :
    startGate d o alloc f = (true, f) ∨
      ∃ r, f.Trips d.cfg.memFuse (.beforeStart r o.now) ∧
        startGate d o alloc f = (false, (f.call d.cfg.memFuse (.beforeStart r o.now)).2) := by
  unfold startGate
  rcases hstate : f.state with _ | _ | _ | _
  · exact .inl rfl
  · rcases o.memAvailable with err | avail
    · exact .inl rfl
    · simp only
      generalize ({ memAvailableMb := avail,
                    workerRssMb := if alloc.pid = 0 then 0 else o.processRss,
                    nicBufferCfgMb := alloc.totalCfgMb, newNicBufferCfgMb := alloc.newCfgMb,
                    memLimitMb := alloc.memLimitMb } : Reading) = r
      by_cases hfits : r.newNicBufferMb + d.cfg.memFuse.minAvailableMb ≤ r.memAvailableMb
      · left
        unfold Fuse.beforeStart
        rw [hstate]
        exact if_pos hfits
      · right
        refine ⟨r, Fuse.trips_beforeStart_iff.mpr ⟨hstate, hfits⟩, ?_⟩
        unfold Fuse.call Fuse.beforeStart
        rw [hstate]
        simp only [if_neg hfits]
        rfl
  · exact absurd (.inl hstate) hf
  · exact absurd (.inr hstate) hf

theorem Syncer.mgr_trip (o : Outside) (s : Syncer) : (s.trip o).mgr = s.mgr.stopWorker := by
  unfold Syncer.trip
  rw [Syncer.mgr_syncMetric]
  rfl

/-- The end of an apply leaves the fuse alone, or trips it and stops the worker. -/
theorem Syncer.conclude_end {res : SyncStrategyResponse} {activeInstances : List String}
    {applied : Applied Fuse} (hblown : ¬ s.fuse.Blown)
    (happly : WorkerManager.ApplyEnd d.toSetup o res (startGate d o) activeInstances s.mgr s.fuse
      applied)
    {refused : Syncer → Syncer} {succeeded : WorkerCreateResult → Syncer → Syncer}
    (hrefused : ∀ s, (refused s).view = s.view ∧ (refused s).mgr = s.mgr)
    (hsucceeded : ∀ cr s, (succeeded cr s).view = s.view) :
    (s.conclude o applied refused succeeded).view = s.view ∨
      ∃ c, s.fuse.Trips d.cfg.memFuse c ∧
        (s.conclude o applied refused succeeded).view =
          (s.view.follow (s.fuse.call d.cfg.memFuse c).2).syncMetric o ∧
        (s.conclude o applied refused succeeded).mgr = s.mgr.stopWorker := by
  rcases happly.gate_cases with ⟨hresult, ⟨alloc, hgate⟩, hmgr⟩ | ⟨hresult, hgate⟩
  · -- the gate refused, which a fuse that is not blown does only by tripping
    rcases startGate_cases hblown alloc with hopen | ⟨r, htrips, hshut⟩
    · rw [hopen] at hgate
      cases hgate
    · rw [hshut] at hgate
      have hfuse : applied.gate = _ := (Prod.mk.inj hgate).2.symm
      have hstopped : applied.mgr.stopWorker = s.mgr.stopWorker := by
        rcases hmgr with hmgr | hmgr
        · rw [hmgr]
        · rw [hmgr, WorkerManager.stopWorker_of_none (WorkerManager.stopWorker_worker _)]
      refine .inr ⟨_, htrips, ?_, ?_⟩
      · unfold Syncer.conclude
        simp only [hresult]
        rw [(hrefused _).1, Syncer.view_trip, ← hfuse]
        rfl
      · unfold Syncer.conclude
        simp only [hresult]
        rw [(hrefused _).2, Syncer.mgr_trip]
        exact hstopped
  · have hfuse : applied.gate = s.fuse := by
      rcases hgate with hgate | ⟨alloc, hgate⟩
      · exact hgate
      · rcases startGate_cases hblown alloc with hopen | ⟨r, htrips, hshut⟩
        · rw [hopen] at hgate
          exact (Prod.mk.inj hgate).2.symm
        · rw [hshut] at hgate
          cases hgate
    have htake : (s.take applied).view = s.view := by
      unfold Syncer.take Syncer.follow Syncer.view
      rw [hfuse]
      simp
    left
    unfold Syncer.conclude
    simp only
    split
    · rename_i hrefused
      exact absurd hrefused hresult
    · exact htake
    · rw [hsucceeded]
      exact htake

theorem Fuse.not_blown_of_accepted {enabled fused : Bool}
    (hallowed : (f.onStrategy enabled fused).1 = true) :
    ¬ (f.onStrategy enabled fused).2.Blown := by
  unfold Fuse.onStrategy Fuse.Blown at *
  by_cases hstate : f.state = .tripped
  · simp [hstate] at hallowed
  · cases fused with
    | true => simp [hstate] at hallowed
    | false => cases enabled <;> simp [hstate]

theorem Fuse.blown_of_not_accepted {enabled fused : Bool}
    (hrefused : (f.onStrategy enabled fused).1 = false) : (f.onStrategy enabled fused).2.Blown := by
  unfold Fuse.onStrategy Fuse.Blown at *
  by_cases hstate : f.state = .tripped
  · simp [hstate]
  · cases fused with
    | true => simp [hstate]
    | false => simp [hstate] at hrefused

/-- The end of an apply, as the fuse sees it. -/
theorem FuseEnd.of_conclude {res : SyncStrategyResponse} {activeInstances : List String}
    {applied : Applied Fuse}
    (hf : f = s.fuse ∨ ∃ enabled fused, f = (s.fuse.onStrategy enabled fused).2)
    (hblown : ¬ f.Blown)
    (happly : WorkerManager.ApplyEnd d.toSetup o res (startGate d o) activeInstances s.mgr f
      applied) {refused : Syncer → Syncer} {succeeded : WorkerCreateResult → Syncer → Syncer}
    (hrefused : ∀ s, (refused s).view = s.view ∧ (refused s).mgr = s.mgr)
    (hsucceeded : ∀ cr s, (succeeded cr s).view = s.view) :
    FuseEnd d o s ({ s with fuse := f }.conclude o applied refused succeeded) := by
  rcases Syncer.conclude_end (s := { s with fuse := f }) hblown happly hrefused hsucceeded with
    hview | ⟨c, htrips, hview, hmgr⟩
  · rcases hf with rfl | ⟨enabled, fused, rfl⟩
    · exact .kept _ hview fun h => absurd h hblown
    · exact .answered _ enabled fused hview fun h => absurd h hblown
  · exact .tripped _ f c hf htrips hview hmgr

/-- What a changed strategy does to the fuse and the worker. -/
theorem Syncer.applyChanged_end (hheld : s.mgr.Held) (resp : SyncStrategyResponse) :
    FuseEnd d o s (s.applyChanged d o resp) := by
  cases hallowed : (s.fuse.onStrategy resp.memFuseEnabled resp.memFused).1 with
  | true =>
    have hfuse : s.fuseAllowsStrategy o resp =
        (true, { s with fuse := (s.fuse.onStrategy resp.memFuseEnabled resp.memFused).2 }) := by
      unfold Syncer.fuseAllowsStrategy
      simp only [hallowed, true_or, if_true]
    unfold Syncer.applyChanged
    simp only [hfuse, if_true]
    apply FuseEnd.of_conclude (.inr ⟨_, _, rfl⟩) (Fuse.not_blown_of_accepted hallowed)
    · exact WorkerManager.update_end hheld _
    · exact fun _ => ⟨rfl, rfl⟩
    · exact fun _ _ => rfl
  | false =>
    unfold Syncer.applyChanged Syncer.fuseAllowsStrategy
    simp only [hallowed, Bool.false_eq_true, false_or]
    apply FuseEnd.answered _ resp.memFuseEnabled resp.memFused
    · split
      · rfl
      · split <;> rfl
    · intro _
      by_cases hblown : s.fuse.state = .tripped ∨ s.fuse.state = .fused
      · rw [if_pos hblown]
        exact .inl ⟨hblown, rfl⟩
      · rw [if_neg hblown]
        refine .inr ⟨hblown, ?_⟩
        rcases s.mgr.isAlive o with err | alive
        · exact .inr ⟨(by simp), rfl⟩
        · match alive with
          | true => exact .inl ⟨rfl, rfl⟩
          | false => exact .inr ⟨(by simp), rfl⟩

/-- What an unchanged strategy does to fuse and worker. -/
theorem Syncer.applyUnchanged_end (hheld : s.mgr.Held) : FuseEnd d o s (s.applyUnchanged d o) := by
  have hkept : FuseEnd d o s s := .kept s rfl fun _ => rfl
  unfold Syncer.applyUnchanged
  split_ifs with hblown
  · exact hkept
  · split
    · exact hkept
    · simp only
      split
      · exact hkept
      · exact .of_conclude (.inl rfl) hblown (WorkerManager.createIfDead_end _ _)
          (fun _ => ⟨rfl, rfl⟩)
          fun _ _ => rfl
    · unfold Syncer.updateIfInstanceChanged
      split
      · split
        · exact .of_conclude (.inl rfl) hblown (WorkerManager.update_end hheld _)
            (fun _ => ⟨rfl, rfl⟩) fun _ _ => rfl
        · exact hkept
      · exact hkept

theorem Syncer.applyStrategy_end (hheld : s.mgr.Held) (res : SyncStrategyResult) :
    FuseEnd d o s (s.applyStrategy d o res) := by
  match res with
  | .unchanged => exact Syncer.applyUnchanged_end hheld
  | .changed resp => exact Syncer.applyChanged_end hheld resp

/-- A check of an armed fuse trips it or not. -/
theorem Fuse.onCheck_armed {cfg : FuseConfig} (harmed : f.state = .armed) (r : Reading) (now : ℤ) :
    ((f.onCheck cfg r now).1 = true ∧ f.Trips cfg (.onCheck r now)) ∨
      ((f.onCheck cfg r now).1 = false ∧ (f.onCheck cfg r now).2.state = .armed) := by
  rcases honCheck : f.onCheck cfg r now with ⟨answer, f'⟩
  have hcall : f.call cfg (.onCheck r now) = (some answer, f') := by
    show (f.onCheck cfg r now).map some id = _
    rw [honCheck]
    rfl
  unfold Fuse.Trips
  rw [hcall]
  cases Fuse.move_of_call hcall with
  | checkIgnored r now hnot => exact absurd harmed hnot
  | checkPassed | checkHit => exact .inr ⟨rfl, harmed⟩
  | checkTripped => exact .inl ⟨rfl, by rw [harmed]; decide, rfl⟩

theorem Syncer.onFuseTick_end : FuseEnd d o s (s.onFuseTick d o) := by
  rcases s.onFuseTick_cases d o with heq | ⟨r, harmed, heq⟩
  · rw [heq]
    exact .kept s rfl fun _ => rfl
  · rw [heq]
    rcases Fuse.onCheck_armed harmed r o.now with ⟨hanswer, htrips⟩ | ⟨hanswer, hstays⟩
    · rw [if_pos hanswer]
      exact .tripped _ s.fuse _ (.inl rfl) htrips (Syncer.view_trip _ _) (Syncer.mgr_trip _ _)
    · rw [if_neg (by rw [hanswer]; exact Bool.false_ne_true)]
      refine .checked _ r harmed hstays ?_
      unfold Syncer.follow Syncer.view
      simp [hstays]

end ends

/-! ## Every fuse of the syncer is the result of calls -/

theorem Fuse.calls_append (cfg : FuseConfig) (f : Fuse) (cs cs' : List FuseCall) :
    f.calls cfg (cs ++ cs') = (f.calls cfg cs').calls cfg cs := by
  induction cs with
  | nil => rfl
  | cons c cs ih =>
    show ((f.calls cfg (cs ++ cs')).call cfg c).2 = _
    rw [ih]
    rfl

/-- The fuse `f'` is `f` after some calls. -/
def Fuse.Calls (cfg : FuseConfig) (f f' : Fuse) : Prop := ∃ cs, f' = f.calls cfg cs

namespace Fuse.Calls

variable {cfg : FuseConfig} {f f' f'' : Fuse}

theorem refl (cfg : FuseConfig) (f : Fuse) : f.Calls cfg f := ⟨[], rfl⟩

theorem trans (h : f.Calls cfg f') (h' : f'.Calls cfg f'') : f.Calls cfg f'' := by
  obtain ⟨cs, rfl⟩ := h
  obtain ⟨cs', rfl⟩ := h'
  exact ⟨cs' ++ cs, (f.calls_append cfg cs' cs).symm⟩

theorem call (f : Fuse) (c : FuseCall) : f.Calls cfg (f.call cfg c).2 := ⟨[c], rfl⟩

theorem syncMetric (o : Outside) (v : FuseView) : v.fuse.Calls cfg (v.syncMetric o).fuse := by
  unfold FuseView.syncMetric
  split
  · exact refl _ _
  · simp only
    split
    · exact call v.fuse .onReportAck
    · exact refl _ _

end Fuse.Calls

variable {d : SyncerSetup} {o : Outside} {s t : Syncer}

/-- Whatever the end, the fuse got calls of its own only. -/
theorem FuseEnd.calls (h : FuseEnd d o s t) : s.fuse.Calls d.cfg.memFuse t.fuse := by
  cases h with
  | kept hview =>
    have hfuse : t.fuse = s.fuse := congrArg FuseView.fuse hview
    rw [hfuse]
    exact .refl _ _
  | answered enabled fused hview =>
    have hfuse : t.fuse = _ := congrArg FuseView.fuse hview
    rw [hfuse]
    exact .call s.fuse (.onStrategy enabled fused)
  | checked r harmed hstays hview =>
    have hfuse : t.fuse = _ := congrArg FuseView.fuse hview
    rw [hfuse]
    exact .call s.fuse (.onCheck r o.now)
  | tripped f c hf htrips hview =>
    have hfuse : t.fuse = _ := congrArg FuseView.fuse hview
    have hfirst : s.fuse.Calls d.cfg.memFuse f := by
      rcases hf with rfl | ⟨enabled, fused, rfl⟩
      · exact .refl _ _
      · exact .call s.fuse (.onStrategy enabled fused)
    rw [hfuse]
    apply (hfirst.trans (.call f c)).trans
    exact .syncMetric o ({ s.view with fuse := f }.follow (f.call d.cfg.memFuse c).2)

/-- **Every event calls the fuse**, in a daemon whose workers come with their clients. -/
theorem step_fuse_calls (hheld : s.mgr.Held) {e : Event} (hstep : step d s e = some t) :
    s.fuse.Calls d.cfg.memFuse t.fuse := by
  cases step_moves hstep with
  | registered daemonId hphase =>
    simp only [Syncer.doRegister]
    split
    · exact .refl _ _
    · split
      · exact .refl _ _
      · exact .call s.fuse .reset
  | registerFailed elapsed hphase =>
    unfold Syncer.registerFailed
    simp only
    split <;> exact .refl _ _
  | strategy failCount res o hphase => exact (Syncer.applyStrategy_end (o := o) hheld res).calls
  | strategyFailed failCount isCanceled hphase hcanceled =>
    unfold Syncer.strategyFailed
    split <;> exact .refl _ _
  | metric failCount o hphase =>
    have hfuse : (s.syncMetric o).fuse = _ := congrArg FuseView.fuse (s.view_syncMetric o)
    rw [hfuse]
    exact .syncMetric o s.view
  | fuseTick failCount o hphase => exact (Syncer.onFuseTick_end (o := o)).calls
  | nicsChanged | doneRegistering | doneSyncing | exits | reaped | cancel => exact .refl _ _

theorem Reached.fuse_calls (hs : Reached d s) : Fuse.new.Calls d.cfg.memFuse s.fuse := by
  obtain ⟨es, hes⟩ := hs
  have hboth : s.mgr.Sound ∧ Fuse.new.Calls d.cfg.memFuse s.fuse := by
    apply exec_invariant
      (P := fun s : Syncer => s.mgr.Sound ∧ Fuse.new.Calls d.cfg.memFuse s.fuse) _
      ⟨.of_none rfl rfl, .refl _ _⟩ hes
    intro s e s' hP hstep
    exact ⟨sound_kept.step hP.1 hstep, hP.2.trans (step_fuse_calls hP.1.held hstep)⟩
  exact hboth.2

theorem Reached.step (hs : Reached d s) {e : Event} (hstep : step d s e = some t) :
    Reached d t := by
  obtain ⟨es, hes⟩ := hs
  refine ⟨es ++ [e], (exec_append_eq_some _).mpr ⟨s, hes, ?_⟩⟩
  exact (exec_cons_eq_some _).mpr ⟨t, hstep, rfl⟩

theorem Reached.blown_of_snap (hs : Reached d s) (hsnap : s.fuse.snap ≠ none) : s.fuse.Blown := by
  obtain ⟨cs, hcs⟩ := hs.fuse_calls
  have htracks := tracks_log (FuseConfig.one_le_failThreshold d.fuseValid) cs
  rw [← hcs] at htracks
  exact htracks.state_of_snap (Option.isSome_iff_ne_none.mpr hsnap)

end CloudProbe.Daemon
