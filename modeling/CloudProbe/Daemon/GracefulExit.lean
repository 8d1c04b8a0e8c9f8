import CloudProbe.Daemon.FuseGuard

/-!
# What runs when `Run` has returned

The context of the syncer may be cancelled at any time. The sync loop stops the worker when it takes
the cancellation from the context itself; the two other ways out leave the worker alone: the
register loop, and a poll whose error is the cancellation, after too many failed polls (`Returns`).
-/

namespace CloudProbe.Daemon

open Lib

variable {d : SyncerSetup} {s t : Syncer} {e : Event}

inductive Returns (d : SyncerSetup) (s : Syncer) : Event → Syncer → Prop
  | registering (hphase : s.phase = .registering) : Returns d s .done { s with phase := .returned }
  | syncing (failCount : ℕ) (hphase : s.phase = .syncing failCount) :
      Returns d s .done { s.stopWorker with phase := .returned }
  | polling (failCount : ℕ) (hphase : s.phase = .syncing failCount)
      (hfailed : d.cfg.syncStrategyMaxRetries ≤ failCount) :
      Returns d s (.strategyFailed true) { s with phase := .returned }

theorem Syncer.phase_syncMetric (o : Outside) (s : Syncer) : (s.syncMetric o).phase = s.phase := by
  unfold Syncer.syncMetric
  split <;> rfl

/-- The events with which `Run` returns. -/
theorem step_returns (hstep : step d s e = some t) (hbefore : s.phase ≠ .returned)
    (hafter : t.phase = .returned) : Returns d s e t := by
  cases step_moves hstep with
  | registered | strategy | nicsChanged => cases hafter
  | registerFailed elapsed hphase =>
    exfalso
    unfold Syncer.registerFailed at hafter
    simp only at hafter
    split at hafter <;> exact hbefore hafter
  | strategyFailed failCount isCanceled hphase hcanceled =>
    unfold Syncer.strategyFailed at hafter ⊢
    by_cases hfailed : d.cfg.syncStrategyMaxRetries ≤ failCount
    · rw [if_pos hfailed] at hafter ⊢
      match isCanceled with
      | true => exact .polling failCount hphase hfailed
      | false => cases hafter
    · rw [if_neg hfailed] at hafter
      cases hafter
  | metric failCount o hphase =>
    rw [Syncer.phase_syncMetric] at hafter
    exact absurd hafter hbefore
  | fuseTick failCount o hphase =>
    exfalso
    rcases s.onFuseTick_cases d o with heq | ⟨r, -, heq⟩
    · rw [heq] at hafter
      exact hbefore hafter
    · rw [heq] at hafter
      split at hafter
      · rw [Syncer.trip, Syncer.phase_syncMetric] at hafter
        exact hbefore hafter
      · exact hbefore hafter
  | doneRegistering hphase hcancelled => exact .registering hphase
  | doneSyncing failCount hphase hcancelled => exact .syncing failCount hphase
  | exits | reaped | cancel => exact absurd hafter hbefore

/-- The sync loop takes the cancellation from the context, or no worker is alive when `Run` is about
to return. -/
def StopsOnReturn (s : Syncer) (e : Event) : Prop :=
  (e = .done ∧ ∃ failCount, s.phase = .syncing failCount) ∨ ¬ s.mgr.Alive

/-- **Exactly when `Run` leaves no worker behind.** -/
theorem no_worker_at_return_iff (hs : Reached d s) (hstep : step d s e = some t)
    (hbefore : s.phase ≠ .returned) (hafter : t.phase = .returned) :
    ¬ t.mgr.Alive ↔ StopsOnReturn s e := by
  unfold StopsOnReturn
  cases step_returns hstep hbefore hafter with
  | registering hphase =>
    have hnot : ¬ ∃ failCount, s.phase = .syncing failCount := by
      rintro ⟨failCount, hsyncing⟩
      exact absurd (hphase.symm.trans hsyncing) (by simp)
    exact ⟨.inr, fun h => h.resolve_left fun hsyncing => hnot hsyncing.2⟩
  | syncing failCount hphase =>
    refine ⟨fun _ => .inl ⟨rfl, failCount, hphase⟩, fun _ => ?_⟩
    exact WorkerManager.not_alive_stopWorker hs.sound
  | polling failCount hphase hfailed =>
    exact ⟨.inr, fun h => h.resolve_left fun hdone => by cases hdone.1⟩

def startedThenCancelled : List Event :=
  [.registered 1, .strategy (.changed (sampleStrategy 1 false)) sampleOutside, .cancel]

/-- When the sync loop takes the cancellation, the worker is stopped. -/
theorem no_worker_at_return_iff_syncing :
    (stateAfter restarting startedThenCancelled).mgr.Alive ∧
      ¬ (stateAfter restarting (startedThenCancelled ++ [.done])).mgr.Alive := by
  have hreached : Reached restarting (stateAfter restarting startedThenCancelled) :=
    ⟨startedThenCancelled, by decide +kernel⟩
  have hstep : step restarting (stateAfter restarting startedThenCancelled) .done =
      some (stateAfter restarting (startedThenCancelled ++ [.done])) := by decide +kernel
  refine ⟨by decide +kernel, ?_⟩
  exact (no_worker_at_return_iff hreached hstep (by decide +kernel) (by decide +kernel)).mpr
    (.inl ⟨rfl, 0, by decide +kernel⟩)

/-- **A worker is left running** when the context is cancelled while the daemon registers or once
too often in a poll. -/
theorem worker_left_at_return :
    (∃ s, exec (step restarting) {} (startedThenCancelled ++ [.nicsChanged, .done]) = some s ∧
        s.phase = .returned ∧ s.mgr.Alive) ∧
      ∃ s, exec (step restarting) {}
          (startedThenCancelled ++ List.replicate 4 (.strategyFailed true)) = some s ∧
        s.phase = .returned ∧ s.mgr.Alive := by
  refine ⟨⟨stateAfter restarting (startedThenCancelled ++ [.nicsChanged, .done]), ?_⟩,
    ⟨stateAfter restarting (startedThenCancelled ++ List.replicate 4 (.strategyFailed true)), ?_⟩⟩
  all_goals decide +kernel

end CloudProbe.Daemon
