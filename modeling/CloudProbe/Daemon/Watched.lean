import CloudProbe.Daemon.FuseGuard

/-!
# No worker escapes the fuse

A fuse tick looks at the stored strategy first and does nothing without one. So a worker that runs
without it would use any memory it likes. A failed apply brings no worker to life, and what forgets
the strategy stops the worker (`Watched.step`).
-/

namespace CloudProbe.Daemon

open Lib Option

variable {d : SyncerSetup} {s t : Syncer} {e : Event}

namespace WorkerManager

theorem alive_iff {m : WorkerManager} (h : m.Sound) :
    m.Alive ↔ ∃ w, m.worker = some w ∧ w.Running := by
  unfold Alive process? Worker.Running
  rcases m.worker with _ | w
  · simp [h.noneLost]
  · rcases hcmd : w.cmd with _ | process <;> simp [h.noneLost, hcmd]

/-- A worker that is alive after an error was alive before. -/
theorem ApplyEnd.alive_of_error {o : Outside} {res : SyncStrategyResponse} {γ : Type}
    {gate : StartGate γ} {activeInstances : List String} {m : WorkerManager} {g : γ}
    {applied : Applied γ} {err : MgrError} (hm : m.Sound)
    (hend : ApplyEnd d.toSetup o res gate activeInstances m g applied)
    (herr : applied.result = .error err) (halive : applied.mgr.Alive) : m.Alive := by
  rw [alive_iff (hm.apply hend)] at halive
  rw [alive_iff hm]
  obtain ⟨w, hworker, hrunning⟩ := halive
  cases hend with
  | failed | refused => exact ⟨w, hworker, hrunning⟩
  | emptied => cases herr
  | created applied hcreate =>
    exfalso
    have hstopped := stopWorker_worker m
    cases hcreate with
    | failed | refused => exact absurd (hworker.symm.trans hstopped) (some_ne_none _)
    | idle => cases herr
    | launched built alloc g' done hbuild hsome hgate hdone =>
      obtain ⟨process, hcmd, -⟩ := hrunning
      cases hdone with
      | noDir => exact absurd (hworker.symm.trans hstopped) (some_ne_none _)
      | notStarted | notLimited =>
        cases hworker
        cases hcmd
      | started => cases herr
  | reloaded built v g' done hbuild hsome hv hgate hdone =>
    cases hdone with
    | notWritten => exact ⟨w, hworker, hrunning⟩
    | notTaken => exact ⟨w, hv.trans hworker, hrunning⟩
    | unanswered err hwrite hbefore | notLimited err hwrite hbefore => exact ⟨v, hv, hbefore⟩
    | reloaded => cases herr

end WorkerManager

/-- A worker that runs has its strategy stored. -/
def Watched (s : Syncer) : Prop := s.mgr.Alive → s.syncResp.isSome = true

@[simp] theorem Syncer.syncResp_syncMetric (o : Outside) (s : Syncer) :
    (s.syncMetric o).syncResp = s.syncResp := by
  unfold Syncer.syncMetric
  split <;> rfl

theorem Syncer.isSome_conclude {o : Outside} {applied : Applied Fuse}
    {succeeded : WorkerCreateResult → Syncer → Syncer} (hs : s.syncResp.isSome = true)
    (hsucceeded : ∀ cr s, (succeeded cr s).syncResp = s.syncResp) :
    (s.conclude o applied id succeeded).syncResp.isSome = true := by
  unfold Syncer.conclude
  simp only
  split
  · exact (congrArg Option.isSome (Syncer.syncResp_syncMetric _ _)).trans hs
  · exact hs
  · rw [hsucceeded]
    exact hs

theorem Syncer.applyUnchanged_of_none {o : Outside} (hnone : s.syncResp = none) :
    s.applyUnchanged d o = s := by
  unfold Syncer.applyUnchanged Syncer.updateIfInstanceChanged
  simp only [hnone]
  split
  · rfl
  · split
    · rfl
    · rename_i heq
      cases heq
    · rfl

theorem Watched.applyUnchanged (h : Watched s) (o : Outside) : Watched (s.applyUnchanged d o) := by
  cases hresp : s.syncResp with
  | none =>
    rw [Syncer.applyUnchanged_of_none hresp]
    exact h
  | some resp =>
    have hsome : s.syncResp.isSome = true := by rw [hresp]; rfl
    intro _
    unfold Syncer.applyUnchanged Syncer.updateIfInstanceChanged
    split
    · exact hsome
    · split
      · exact hsome
      · simp only
        split
        · exact hsome
        · exact Syncer.isSome_conclude hsome fun _ _ => rfl
      · split
        · split
          · exact Syncer.isSome_conclude hsome fun _ _ => rfl
          · exact hsome
        · exact hsome

/-- A changed strategy leaves the worker watched. -/
theorem Watched.applyChanged (h : Watched s) (hsound : s.mgr.Sound) (o : Outside)
    (resp : SyncStrategyResponse) : Watched (s.applyChanged d o resp) := by
  unfold Watched Syncer.applyChanged
  simp only
  split
  · rename_i hallowed
    have hsame : (s.fuseAllowsStrategy o resp).2.mgr = s.mgr ∧
        (s.fuseAllowsStrategy o resp).2.syncResp = s.syncResp := by
      unfold Syncer.fuseAllowsStrategy at hallowed ⊢
      simp only at hallowed ⊢
      split
      · exact ⟨rfl, rfl⟩
      · rename_i hrefused
        rw [if_neg hrefused] at hallowed
        cases hallowed
    unfold Syncer.conclude
    simp only
    split
    · exact fun _ => rfl
    · rename_i err hne herr
      intro halive
      have halive' := WorkerManager.ApplyEnd.alive_of_error (hsame.1 ▸ hsound)
        (WorkerManager.update_end (hsame.1 ▸ hsound.held) _) herr halive
      rw [hsame.1] at halive'
      exact (congrArg Option.isSome hsame.2).trans (h halive')
    · exact fun _ => rfl
  · exact fun _ => rfl

/-- **The step lemma**: every event leaves the process with the handle and a strategy. -/
theorem Watched.step (h : Watched s) (hsound : s.mgr.Sound) (hstep : step d s e = some t) :
    Watched t := by
  cases step_moves hstep with
  | registered daemonId hphase =>
    unfold Watched
    simp only [Syncer.doRegister]
    split
    · exact h
    · split
      · exact h
      · exact fun halive => absurd halive (WorkerManager.not_alive_stopWorker hsound)
  | registerFailed elapsed hphase =>
    unfold Syncer.registerFailed
    simp only
    split
    · exact fun halive => absurd halive (WorkerManager.not_alive_stopWorker hsound)
    · exact h
  | strategy failCount res o hphase =>
    cases res with
    | unchanged => exact h.applyUnchanged o
    | changed resp => exact h.applyChanged hsound o resp
  | strategyFailed failCount isCanceled hphase hcanceled =>
    unfold Syncer.strategyFailed
    split <;> exact h
  | metric failCount o hphase =>
    unfold Watched
    rw [Syncer.mgr_syncMetric, Syncer.syncResp_syncMetric]
    exact h
  | fuseTick failCount o hphase =>
    rcases s.onFuseTick_cases d o with heq | ⟨r, -, heq⟩
    · rw [heq]
      exact h
    · rw [heq]
      split
      · intro halive
        rw [Syncer.mgr_trip] at halive
        exact absurd halive (WorkerManager.not_alive_stopWorker hsound)
      · exact h
  | nicsChanged failCount hphase | doneRegistering hphase hcancelled | cancel => exact h
  | doneSyncing failCount hphase hcancelled =>
    exact fun halive => absurd halive (WorkerManager.not_alive_stopWorker hsound)
  | exits => exact fun halive => h (halive.of_map fun w => .inl (by simp [Worker.exits]))
  | reaped =>
    refine fun halive => h (halive.of_map fun w => ?_)
    unfold Worker.reap
    rcases hcmd : w.cmd with _ | process
    · exact .inl rfl
    · rcases hrunning : process.running with _ | _
      · exact .inl (by simp [hrunning])
      · exact .inr (by simp [hrunning])

end CloudProbe.Daemon
