import CloudProbe.Daemon.Fuse
import Mathlib.Algebra.Group.Nat.Defs
import Mathlib.Data.List.TakeWhile

/-!
# What the memory fuse does over a history of calls

The fuse keeps one counter and one snapshot. Both are functions of the calls made so far, and every
rule of the fuse is a statement about that history.

* **Calls** (`FuseCall`, `Fuse.call`) and histories (`Fuse.calls`, `Fuse.log`), latest call first.
* **One call** (`FuseMove`, `call_move`): every way a call ends. Everything else goes through it.
* **The invariant** (`Tracks`): the counter counts the failed checks since the last call that
  settled it, the snapshot is the one of the last trip that was not cleared.
* **The specification** (`FuseSpec`, `fuse_meets_spec`).
-/

namespace CloudProbe.Daemon

open List

/-- Source: `memfuse/fuse.go`, the methods of `Fuse` that change it -/
inductive FuseCall where
  | onStrategy (enabled fused : Bool)
  | beforeStart (r : Reading) (now : ℤ)
  | onCheck (r : Reading) (now : ℤ)
  | onReportAck
  | reset
deriving DecidableEq

namespace Fuse

/-- The answer of a call (`reset` has none) and the fuse after it. -/
def call (cfg : FuseConfig) (f : Fuse) : FuseCall → Option Bool × Fuse
  | .onStrategy enabled fused => (f.onStrategy enabled fused).map some id
  | .beforeStart r now => (f.beforeStart cfg r now).map some id
  | .onCheck r now => (f.onCheck cfg r now).map some id
  | .onReportAck => f.onReportAck.map some id
  | .reset => (none, f.reset)

/-- The fuse after some calls, the latest one first in the list. -/
def calls (cfg : FuseConfig) (f : Fuse) : List FuseCall → Fuse
  | [] => f
  | c :: cs => ((f.calls cfg cs).call cfg c).2

/-- The call `c` trips the fuse. -/
def Trips (cfg : FuseConfig) (f : Fuse) (c : FuseCall) : Prop :=
  f.state ≠ .tripped ∧ (f.call cfg c).2.state = .tripped

instance (cfg : FuseConfig) (f : Fuse) (c : FuseCall) : Decidable (f.Trips cfg c) :=
  inferInstanceAs (Decidable (_ ∧ _))

end Fuse

/-! ## Histories -/

structure FuseEntry where
  before : Fuse
  call : FuseCall

/-- The calls made, each with the fuse it was made on, the latest one first. -/
def Fuse.log (cfg : FuseConfig) (f : Fuse) : List FuseCall → List FuseEntry
  | [] => []
  | c :: cs => ⟨f.calls cfg cs, c⟩ :: f.log cfg cs

namespace FuseEntry

variable (cfg : FuseConfig)

/-- A strategy that was accepted, or a reset. -/
def clears (e : FuseEntry) : Bool :=
  match e.call with
  | .onStrategy enabled fused => (e.before.onStrategy enabled fused).1
  | .reset => true
  | _ => false

def isArmedCheck (e : FuseEntry) : Bool :=
  match e.call with
  | .onCheck _ _ => e.before.state = .armed
  | _ => false

/-- A check made while armed that found the reserve. -/
def passes (e : FuseEntry) : Bool :=
  match e.call with
  | .onCheck r _ => e.before.state = .armed ∧ cfg.minAvailableMb ≤ r.memAvailableMb
  | _ => false

/-- The snapshot that the call took, when it tripped the fuse. -/
def snapshot? (e : FuseEntry) : Option Snapshot :=
  if e.before.Trips cfg e.call then (e.before.call cfg e.call).2.snap else none

end FuseEntry

/-- The calls since the last strategy that was accepted, or the last reset. -/
def fuseRound (h : List FuseEntry) : List FuseEntry := h.takeWhile fun e => !e.clears

/-- The checks made while armed since the last check that passed, strategy that was accepted, or
reset. -/
def earlierChecks (cfg : FuseConfig) (h : List FuseEntry) : List FuseEntry :=
  (h.takeWhile fun e => !(e.clears || e.passes cfg)).filter FuseEntry.isArmedCheck

/-! ## One call -/

/-- Every way a call ends. -/
inductive FuseMove (cfg : FuseConfig) (f : Fuse) : FuseCall → Option Bool → Fuse → Prop
  | strategyIgnored (enabled fused : Bool) (hstate : f.state = .tripped) :
      FuseMove cfg f (.onStrategy enabled fused) (some false) { f with enabled := enabled }
  | strategyFused (enabled : Bool) (hstate : f.state ≠ .tripped) :
      FuseMove cfg f (.onStrategy enabled true) (some false)
        { f with enabled := enabled, state := .fused, hits := 0 }
  | strategyAccepted (enabled : Bool) (hstate : f.state ≠ .tripped) :
      FuseMove cfg f (.onStrategy enabled false) (some true)
        { state := if enabled then .armed else .disabled, enabled := enabled, hits := 0,
          snap := none }
  | startAllowed (r : Reading) (now : ℤ) (hstate : f.state = .disabled ∨ f.state = .armed ∧
        r.newNicBufferMb + cfg.minAvailableMb ≤ r.memAvailableMb) :
      FuseMove cfg f (.beforeStart r now) (some true) f
  | startRefused (r : Reading) (now : ℤ) (hstate : f.state = .tripped ∨ f.state = .fused) :
      FuseMove cfg f (.beforeStart r now) (some false) f
  | startTripped (r : Reading) (now : ℤ) (hstate : f.state = .armed)
      (hlow : ¬ r.newNicBufferMb + cfg.minAvailableMb ≤ r.memAvailableMb) :
      FuseMove cfg f (.beforeStart r now) (some false) (f.trip .startup r now)
  | checkIgnored (r : Reading) (now : ℤ) (hstate : f.state ≠ .armed) :
      FuseMove cfg f (.onCheck r now) (some false) f
  | checkPassed (r : Reading) (now : ℤ) (hstate : f.state = .armed)
      (hpass : cfg.minAvailableMb ≤ r.memAvailableMb) :
      FuseMove cfg f (.onCheck r now) (some false) { f with hits := 0 }
  | checkHit (r : Reading) (now : ℤ) (hstate : f.state = .armed)
      (hlow : ¬ cfg.minAvailableMb ≤ r.memAvailableMb)
      (hhits : ((f.hits + 1 : ℕ) : ℤ) < cfg.failThreshold) :
      FuseMove cfg f (.onCheck r now) (some false) { f with hits := f.hits + 1 }
  | checkTripped (r : Reading) (now : ℤ) (hstate : f.state = .armed)
      (hlow : ¬ cfg.minAvailableMb ≤ r.memAvailableMb)
      (hhits : cfg.failThreshold ≤ ((f.hits + 1 : ℕ) : ℤ)) :
      FuseMove cfg f (.onCheck r now) (some true)
        ({ f with hits := f.hits + 1 }.trip .runtime r now)
  | acked (hstate : f.state = .tripped) :
      FuseMove cfg f .onReportAck (some true) { f with state := .fused }
  | ackIgnored (hstate : f.state ≠ .tripped) : FuseMove cfg f .onReportAck (some false) f
  | reset : FuseMove cfg f .reset none .new

variable {cfg : FuseConfig}

variable {c : FuseCall} {r : Reading} (f : Fuse)

theorem Fuse.onStrategy_move (enabled fused : Bool) :
    FuseMove cfg f (.onStrategy enabled fused) (f.call cfg (.onStrategy enabled fused)).1
      (f.call cfg (.onStrategy enabled fused)).2 := by
  unfold call onStrategy
  by_cases hstate : f.state = .tripped
  · simp only [if_pos hstate]
    exact .strategyIgnored enabled fused hstate
  · simp only [if_neg hstate]
    match fused with
    | true => exact .strategyFused enabled hstate
    | false => exact .strategyAccepted enabled hstate

theorem Fuse.beforeStart_move (r : Reading) (now : ℤ) :
    FuseMove cfg f (.beforeStart r now) (f.call cfg (.beforeStart r now)).1
      (f.call cfg (.beforeStart r now)).2 := by
  unfold call beforeStart
  rcases hstate : f.state with _ | _ | _ | _
  · exact .startAllowed r now (.inl hstate)
  · by_cases hfits : r.newNicBufferMb + cfg.minAvailableMb ≤ r.memAvailableMb
    · simp only [if_pos hfits]
      exact .startAllowed r now (.inr ⟨hstate, hfits⟩)
    · simp only [if_neg hfits]
      exact .startTripped r now hstate hfits
  · exact .startRefused r now (.inl hstate)
  · exact .startRefused r now (.inr hstate)

theorem Fuse.onCheck_move (r : Reading) (now : ℤ) :
    FuseMove cfg f (.onCheck r now) (f.call cfg (.onCheck r now)).1
      (f.call cfg (.onCheck r now)).2 := by
  unfold call onCheck
  by_cases hstate : f.state ≠ .armed
  · simp only [if_pos hstate]
    exact .checkIgnored r now hstate
  · simp only [if_neg hstate]
    rw [not_not] at hstate
    by_cases hpass : cfg.minAvailableMb ≤ r.memAvailableMb
    · simp only [if_pos hpass]
      exact .checkPassed r now hstate hpass
    · simp only [if_neg hpass]
      by_cases hhits : cfg.failThreshold ≤ ((f.hits + 1 : ℕ) : ℤ)
      · simp only [if_pos hhits]
        exact .checkTripped r now hstate hpass hhits
      · simp only [if_neg hhits]
        exact .checkHit r now hstate hpass (Int.not_le.mp hhits)

theorem Fuse.call_move (c : FuseCall) :
    FuseMove cfg f c (f.call cfg c).1 (f.call cfg c).2 := by
  match c with
  | .onStrategy enabled fused => exact f.onStrategy_move enabled fused
  | .beforeStart r now => exact f.beforeStart_move r now
  | .onCheck r now => exact f.onCheck_move r now
  | .reset => exact .reset
  | .onReportAck =>
    unfold call onReportAck
    by_cases hstate : f.state ≠ .tripped
    · simp only [if_pos hstate]
      exact .ackIgnored hstate
    · simp only [if_neg hstate]
      exact .acked (not_not.mp hstate)

theorem Fuse.move_of_call {f f' : Fuse} {answer : Option Bool} (hcall : f.call cfg c = (answer, f'))
    : FuseMove cfg f c answer f' := by
  have hmove : FuseMove cfg f c (f.call cfg c).1 (f.call cfg c).2 := f.call_move c
  rw [hcall] at hmove
  exact hmove

/-! ## What the fuse keeps of its history -/

/-- **The history behind the fuse**: its counter and its snapshot, and the states that have one. -/
structure Tracks (cfg : FuseConfig) (h : List FuseEntry) (f : Fuse) : Prop where
  hits : f.state = .armed → f.hits = (earlierChecks cfg h).length
  below : f.state = .armed → (f.hits : ℤ) < cfg.failThreshold
  snap : f.snap = (fuseRound h).findSome? (FuseEntry.snapshot? cfg)
  snap_of_tripped : f.state = .tripped → f.snap.isSome = true
  state_of_snap : f.snap.isSome = true → f.state = .tripped ∨ f.state = .fused

variable {h : List FuseEntry} {e : FuseEntry} {f f' : Fuse}

theorem earlierChecks_of_settles (he : e.clears = true ∨ e.passes cfg = true) :
    earlierChecks cfg (e :: h) = [] := by
  unfold earlierChecks
  rw [takeWhile_cons_of_neg, filter_nil]
  rcases he with he | he <;> simp [he]

theorem earlierChecks_cons (hclears : e.clears = false) (hpasses : e.passes cfg = false) :
    earlierChecks cfg (e :: h) =
      if e.isArmedCheck then e :: earlierChecks cfg h else earlierChecks cfg h := by
  unfold earlierChecks
  rw [takeWhile_cons_of_pos (by simp [hclears, hpasses]), filter_cons]

theorem fuseRound_of_clears (he : e.clears = true) : fuseRound (e :: h) = [] :=
  takeWhile_cons_of_neg (by simpa using he)

theorem fuseRound_cons (he : e.clears = false) : fuseRound (e :: h) = e :: fuseRound h :=
  takeWhile_cons_of_pos (by simp [he])

theorem Tracks.clear (he : e.clears = true) (hvalid : 1 ≤ cfg.failThreshold) (hhits : f'.hits = 0)
    (hsnap : f'.snap = none) (hstate : f'.state ≠ .tripped) : Tracks cfg (e :: h) f' where
  hits := fun _ => by rw [earlierChecks_of_settles (.inl he), hhits, length_nil]
  below := fun _ => by rw [hhits]; exact Int.lt_of_lt_of_le Int.zero_lt_one hvalid
  snap := by rw [fuseRound_of_clears he, hsnap, List.findSome?_nil]
  snap_of_tripped := fun htripped => absurd htripped hstate
  state_of_snap := fun hsome => by
    rw [hsnap] at hsome
    cases hsome

theorem Tracks.trip (he : e.clears = false) (hsnap : e.snapshot? cfg = f'.snap)
    (hsome : f'.snap.isSome = true) (hstate : f'.state = .tripped) : Tracks cfg (e :: h) f' where
  hits := fun harmed => by rw [hstate] at harmed; cases harmed
  below := fun harmed => by rw [hstate] at harmed; cases harmed
  snap := by
    obtain ⟨snap, heq⟩ := Option.isSome_iff_exists.mp hsome
    rw [fuseRound_cons he, List.findSome?_cons_of_isSome (by rw [hsnap]; exact hsome), hsnap]
  snap_of_tripped := fun _ => hsome
  state_of_snap := fun _ => .inl hstate

/-- A call that neither trips nor clears. -/
theorem Tracks.keep (ht : Tracks cfg h f) (he : e.clears = false) (htrip : e.snapshot? cfg = none)
    (hsnap : f'.snap = f.snap) (htripped : f'.state = .tripped → f.state = .tripped)
    (hstate : f.state = .tripped ∨ f.state = .fused → f'.state = .tripped ∨ f'.state = .fused)
    (hhits : f'.state = .armed → f'.hits = (earlierChecks cfg (e :: h)).length ∧
      (f'.hits : ℤ) < cfg.failThreshold) : Tracks cfg (e :: h) f' where
  hits := fun harmed => (hhits harmed).1
  below := fun harmed => (hhits harmed).2
  snap := by rw [fuseRound_cons he, List.findSome?_cons_of_isNone (by rw [htrip]; rfl), hsnap,
    ht.snap]
  snap_of_tripped := fun h => by rw [hsnap]; exact ht.snap_of_tripped (htripped h)
  state_of_snap := fun h => by rw [hsnap] at h; exact hstate (ht.state_of_snap h)

theorem Tracks.quiet (ht : Tracks cfg h f) (he : e.clears = false) (hpasses : e.passes cfg = false)
    (hcheck : e.isArmedCheck = false) (htrip : e.snapshot? cfg = none) (hsnap : f'.snap = f.snap)
    (htripped : f'.state = .tripped → f.state = .tripped)
    (hstate : f.state = .tripped ∨ f.state = .fused → f'.state = .tripped ∨ f'.state = .fused)
    (harmed : f'.state = .armed → f.state = .armed ∧ f'.hits = f.hits) :
    Tracks cfg (e :: h) f' := by
  apply ht.keep he htrip hsnap htripped hstate
  intro hf'
  obtain ⟨hf, hhits⟩ := harmed hf'
  rw [earlierChecks_cons he hpasses, hcheck, hhits]
  exact ⟨ht.hits hf, ht.below hf⟩

theorem Tracks.same (ht : Tracks cfg h f) (he : e.clears = false) (hpasses : e.passes cfg = false)
    (hcheck : e.isArmedCheck = false) (htrip : e.snapshot? cfg = none) : Tracks cfg (e :: h) f :=
  ht.quiet he hpasses hcheck htrip rfl id id fun harmed => ⟨harmed, rfl⟩

theorem snapshot?_of_call {answer : Option Bool} (hcall : f.call cfg c = (answer, f')) :
    FuseEntry.snapshot? cfg ⟨f, c⟩ =
      if f.state ≠ .tripped ∧ f'.state = .tripped then f'.snap else none := by
  simp only [FuseEntry.snapshot?, Fuse.Trips, hcall]

/-- **The step lemma**: a call keeps the fuse and its specification together. -/
theorem Tracks.call (ht : Tracks cfg h f) (hvalid : 1 ≤ cfg.failThreshold) (c : FuseCall) :
    Tracks cfg (⟨f, c⟩ :: h) (f.call cfg c).2 := by
  rcases hcall : f.call cfg c with ⟨answer, f'⟩
  have hsnap := snapshot?_of_call hcall
  cases Fuse.move_of_call hcall with
  | strategyIgnored enabled fused hstate =>
    refine ht.quiet ?_ rfl rfl ?_ rfl id id fun harmed => ⟨harmed, rfl⟩
    · simp [FuseEntry.clears, Fuse.onStrategy, hstate]
    · simp [hsnap, hstate]
  | strategyFused enabled hstate =>
    refine ht.quiet ?_ rfl rfl ?_ rfl nofun (fun _ => .inr rfl) nofun
    · simp [FuseEntry.clears, Fuse.onStrategy, hstate]
    · simp [hsnap]
  | strategyAccepted enabled hstate =>
    refine .clear ?_ hvalid rfl rfl ?_
    · simp [FuseEntry.clears, Fuse.onStrategy, hstate]
    · cases enabled <;> simp
  | startAllowed | startRefused | ackIgnored => exact ht.same rfl rfl rfl (by simp [hsnap])
  | startTripped _ _ hstate _ | checkTripped _ _ hstate _ _ =>
    exact .trip rfl (by simp [hsnap, hstate]) rfl rfl
  | checkIgnored r now hstate =>
    refine ht.same rfl ?_ ?_ ?_
    · simp [FuseEntry.passes, hstate]
    · simp [FuseEntry.isArmedCheck, hstate]
    · simp [hsnap]
  | checkPassed r now hstate hpass =>
    refine ht.keep rfl (by simp [hsnap]) rfl id id fun _ => ?_
    rw [earlierChecks_of_settles (.inr (by simp [FuseEntry.passes, hstate, hpass]))]
    exact ⟨rfl, Int.lt_of_lt_of_le Int.zero_lt_one hvalid⟩
  | checkHit r now hstate hlow hhits =>
    refine ht.keep rfl (by simp [hsnap]) rfl id id fun _ => ?_
    rw [earlierChecks_cons rfl (by simp [FuseEntry.passes, hlow]),
      if_pos (by simp [FuseEntry.isArmedCheck, hstate]), length_cons, ← ht.hits hstate]
    exact ⟨rfl, hhits⟩
  | acked hstate => exact ht.quiet rfl rfl rfl (by simp [hsnap]) rfl nofun (fun _ => .inr rfl) nofun
  | reset => exact .clear rfl hvalid rfl rfl (by simp)

theorem FuseConfig.one_le_failThreshold (hvalid : cfg.validate = .ok ()) :
    1 ≤ cfg.failThreshold := by
  unfold FuseConfig.validate at hvalid
  by_contra hlow
  split at hvalid
  · cases hvalid
  · rw [if_pos (Int.not_le.mp hlow)] at hvalid
    cases hvalid

theorem tracks_log (hvalid : 1 ≤ cfg.failThreshold) (cs : List FuseCall) :
    Tracks cfg (Fuse.new.log cfg cs) (Fuse.new.calls cfg cs) := by
  induction cs with
  | nil =>
    refine ⟨?_, ?_, rfl, ?_, ?_⟩ <;> simp [Fuse.calls, Fuse.new]
  | cons c cs ih => exact ih.call hvalid c

/-! ## The specification -/

/-- **What the fuse does**, with the history `h` behind it. Memory is compared without wrapping. -/
structure FuseSpec (cfg : FuseConfig) (h : List FuseEntry) (f : Fuse) : Prop where
  snap_of_tripped : f.state = .tripped → ∃ snap, f.snap = some snap
  state_of_snap : ∀ snap, f.snap = some snap → f.state = .tripped ∨ f.state = .fused
  check_trips : ∀ r now, f.Trips cfg (.onCheck r now) ↔
    f.state = .armed ∧ r.memAvailableMb.toNat < cfg.minAvailableMb.toNat ∧
      ((earlierChecks cfg h).length : ℤ) = cfg.failThreshold - 1
  checks_low : ∀ e ∈ earlierChecks cfg h, e.before.state = .armed ∧
    ∃ r now, e.call = .onCheck r now ∧ r.memAvailableMb.toNat < cfg.minAvailableMb.toNat
  start_trips : ∀ r now, 2 * r.newNicBufferCfgMb.toNat + cfg.minAvailableMb.toNat < 2 ^ 64 →
    (f.Trips cfg (.beforeStart r now) ↔ f.state = .armed ∧
      r.memAvailableMb.toNat < 2 * r.newNicBufferCfgMb.toNat + cfg.minAvailableMb.toNat)
  trips_in_check : ∀ c, f.Trips cfg c → ∃ r now, (c = .onCheck r now ∨ c = .beforeStart r now) ∧
    ∃ reason, (f.call cfg c).2.snap = some ⟨reason, now, r⟩
  leaves_tripped : ∀ c, f.state = .tripped → (f.call cfg c).2.state ≠ .tripped →
    c = .onReportAck ∨ c = .reset
  leaves_fused : ∀ c, f.state = .fused → (f.call cfg c).2.state ≠ .fused →
    (∃ enabled, c = .onStrategy enabled false) ∨ c = .reset
  keeps_snap : ∀ cs, (∀ cs', cs' <:+ cs →
      (f.calls cfg cs').state = .tripped ∨ (f.calls cfg cs').state = .fused) →
    (f.calls cfg cs).snap = f.snap
  report_fused : f.report.1 = .fused ↔ ∃ e ∈ fuseRound h, e.before.Trips cfg e.call
  start_not_tripped : ∀ r now, (f.call cfg (.beforeStart r now)).1 = some true → f.state ≠ .tripped
  strategy_not_tripped : ∀ enabled fused,
    (f.call cfg (.onStrategy enabled fused)).1 = some true → f.state ≠ .tripped

theorem Reading.toNat_newNicBufferMb_add
    (hfits : 2 * r.newNicBufferCfgMb.toNat + cfg.minAvailableMb.toNat < 2 ^ 64) :
    (r.newNicBufferMb + cfg.minAvailableMb).toNat =
      2 * r.newNicBufferCfgMb.toNat + cfg.minAvailableMb.toNat := by
  have hring : r.newNicBufferMb.toNat = 2 * r.newNicBufferCfgMb.toNat := by
    unfold Reading.newNicBufferMb nicBufferMb
    rw [UInt64.toNat_mul, Nat.mod_eq_of_lt] <;> simp only [UInt64.reduceToNat] <;> omega
  rw [UInt64.toNat_add, hring, Nat.mod_eq_of_lt hfits]

theorem Fuse.trips_beforeStart_iff {now : ℤ} :
    f.Trips cfg (.beforeStart r now) ↔
      f.state = .armed ∧ ¬ r.newNicBufferMb + cfg.minAvailableMb ≤ r.memAvailableMb := by
  unfold Fuse.Trips
  rcases hcall : f.call cfg (.beforeStart r now) with ⟨answer, f'⟩
  cases Fuse.move_of_call hcall with
  | startAllowed r now hstate =>
    rcases hstate with hstate | ⟨hstate, hfits⟩
    · simp [hstate]
    · simp [hstate, hfits]
  | startRefused r now hstate => rcases hstate with hstate | hstate <;> simp [hstate]
  | startTripped r now hstate hlow => simp [hstate, hlow]

/-- When a check trips the fuse. -/
theorem Fuse.trips_onCheck_iff {now : ℤ} :
    f.Trips cfg (.onCheck r now) ↔
      f.state = .armed ∧ ¬ cfg.minAvailableMb ≤ r.memAvailableMb ∧
        cfg.failThreshold ≤ ((f.hits + 1 : ℕ) : ℤ) := by
  unfold Fuse.Trips
  rcases hcall : f.call cfg (.onCheck r now) with ⟨answer, f'⟩
  cases Fuse.move_of_call hcall with
  | checkIgnored r now hstate => simp [hstate]
  | checkPassed r now hstate hpass => simp [hstate, hpass]
  | checkHit r now hstate hlow hhits =>
    have hstays : ¬ cfg.failThreshold ≤ ((f.hits + 1 : ℕ) : ℤ) := Int.not_le.mpr hhits
    simp only [hstate, hstays, and_false]
    simp
  | checkTripped r now hstate hlow hhits =>
    simp only [hstate, hlow, hhits, Fuse.trip, not_false_eq_true, and_true]
    simp

/-- A call that keeps the fuse blown keeps the snapshot. -/
theorem Fuse.snap_call (hbefore : f.state = .tripped ∨ f.state = .fused) (c : FuseCall)
    (hafter : (f.call cfg c).2.state = .tripped ∨ (f.call cfg c).2.state = .fused) :
    (f.call cfg c).2.snap = f.snap := by
  have harmed : f.state ≠ .armed := by rcases hbefore with h | h <;> simp [h]
  rcases hcall : f.call cfg c with ⟨answer, f'⟩
  rw [hcall] at hafter
  cases Fuse.move_of_call hcall with
  | strategyAccepted enabled hstate =>
    exfalso
    revert hafter
    cases enabled <;> simp
  | reset => simp at hafter
  | startTripped r now hstate hlow => exact absurd hstate harmed
  | checkTripped r now hstate hlow hhits => exact absurd hstate harmed
  | strategyIgnored | strategyFused | startAllowed | startRefused | checkIgnored | checkPassed
    | checkHit | acked | ackIgnored => rfl

/-- **The snapshot is kept** from the trip on, as long as the fuse stays tripped or fused. -/
theorem Fuse.snap_calls (cs : List FuseCall)
    (hstates : ∀ cs', cs' <:+ cs →
      (f.calls cfg cs').state = .tripped ∨ (f.calls cfg cs').state = .fused) :
    (f.calls cfg cs).snap = f.snap := by
  induction cs with
  | nil => rfl
  | cons c cs ih =>
    have hcs := hstates cs (suffix_cons c cs)
    have hlast := hstates (c :: cs) (suffix_refl _)
    have hkept : (f.calls cfg cs).snap = f.snap := by
      apply ih
      intro cs' hcs'
      exact hstates cs' (hcs'.trans (suffix_cons c cs))
    rw [← hkept]
    exact Fuse.snap_call hcs c hlast

/-- A trip takes a snapshot. -/
theorem Fuse.Trips.check (htrips : f.Trips cfg c) :
    ∃ r now, (c = .onCheck r now ∨ c = .beforeStart r now) ∧
      ∃ reason, (f.call cfg c).2.snap = some ⟨reason, now, r⟩ := by
  obtain ⟨hbefore, hafter⟩ := htrips
  rcases hcall : f.call cfg c with ⟨answer, f'⟩
  rw [hcall] at hafter
  cases Fuse.move_of_call hcall with
  | startTripped r now => exact ⟨r, now, .inr rfl, _, rfl⟩
  | checkTripped r now => exact ⟨r, now, .inl rfl, _, rfl⟩
  | strategyAccepted enabled hstate =>
    exfalso
    revert hafter
    cases enabled <;> simp
  | strategyFused | acked | reset => simp at hafter
  | strategyIgnored | startAllowed | startRefused | checkIgnored | checkPassed | checkHit
    | ackIgnored => exact absurd hafter hbefore

theorem Fuse.call_of_tripped (hstate : f.state = .tripped) (c : FuseCall)
    (hafter : (f.call cfg c).2.state ≠ .tripped) : c = .onReportAck ∨ c = .reset := by
  rcases hcall : f.call cfg c with ⟨answer, f'⟩
  rw [hcall] at hafter
  cases Fuse.move_of_call hcall with
  | acked => exact .inl rfl
  | reset => exact .inr rfl
  | strategyFused enabled hnot | strategyAccepted enabled hnot => exact absurd hstate hnot
  | startTripped | checkTripped => exact absurd rfl hafter
  | strategyIgnored | startAllowed | startRefused | checkIgnored | checkPassed | checkHit
    | ackIgnored => exact absurd hstate hafter

/-- A fused fuse is left only by a clear or a reset. -/
theorem Fuse.call_of_fused (hstate : f.state = .fused) (c : FuseCall)
    (hafter : (f.call cfg c).2.state ≠ .fused) :
    (∃ enabled, c = .onStrategy enabled false) ∨ c = .reset := by
  have harmed : f.state ≠ .armed := by simp [hstate]
  rcases hcall : f.call cfg c with ⟨answer, f'⟩
  rw [hcall] at hafter
  cases Fuse.move_of_call hcall with
  | strategyAccepted enabled => exact .inl ⟨enabled, rfl⟩
  | reset => exact .inr rfl
  | startTripped r now hnot | checkTripped r now hnot => exact absurd hnot harmed
  | strategyFused | acked => exact absurd rfl hafter
  | strategyIgnored | startAllowed | startRefused | checkIgnored | checkPassed | checkHit
    | ackIgnored => exact absurd hstate hafter

theorem FuseEntry.isSome_snapshot? :
    (e.snapshot? cfg).isSome = true ↔ e.before.Trips cfg e.call := by
  unfold FuseEntry.snapshot?
  by_cases htrips : e.before.Trips cfg e.call
  · obtain ⟨r, now, -, reason, hsnap⟩ := htrips.check
    rw [if_pos htrips, hsnap]
    exact ⟨fun _ => htrips, fun _ => rfl⟩
  · rw [if_neg htrips]
    exact ⟨fun h => absurd h Bool.false_ne_true, fun h => absurd h htrips⟩

theorem Fuse.report_eq_fused : f.report.1 = .fused ↔ f.snap.isSome = true := by
  unfold Fuse.report
  rcases f.snap with _ | snap
  · simp only [Option.isSome_none, Bool.false_eq_true, iff_false]
    split <;> simp
  · simp

theorem low_of_mem_earlierChecks (he : e ∈ earlierChecks cfg h) :
    e.before.state = .armed ∧
      ∃ r now, e.call = .onCheck r now ∧ r.memAvailableMb.toNat < cfg.minAvailableMb.toNat := by
  obtain ⟨hmem, hcheck⟩ := mem_filter.mp he
  have hsettles := mem_takeWhile_imp hmem
  obtain ⟨before, c⟩ := e
  match c with
  | .onCheck r now =>
    have harmed : before.state = .armed := by simpa [FuseEntry.isArmedCheck] using hcheck
    refine ⟨harmed, r, now, rfl, ?_⟩
    simpa [FuseEntry.clears, FuseEntry.passes, harmed, UInt64.lt_iff_toNat_lt] using hsettles
  | .onStrategy _ _ | .beforeStart _ _ | .onReportAck | .reset => cases hcheck

/-- **The fuse meets its specification** after every sequence of calls. -/
theorem fuse_meets_spec (hvalid : cfg.validate = .ok ()) (cs : List FuseCall) :
    FuseSpec cfg (Fuse.new.log cfg cs) (Fuse.new.calls cfg cs) := by
  have ht := tracks_log (FuseConfig.one_le_failThreshold hvalid) cs
  generalize Fuse.new.log cfg cs = h at ht ⊢
  generalize Fuse.new.calls cfg cs = f at ht ⊢
  refine ⟨?_, ?_, ?_, ?_, ?_, ?_, ?_, ?_, ?_, ?_, ?_, ?_⟩
  · intro hstate
    exact Option.isSome_iff_exists.mp (ht.snap_of_tripped hstate)
  · intro snap hsnap
    apply ht.state_of_snap
    rw [hsnap]
    rfl
  · intro r now
    rw [Fuse.trips_onCheck_iff, UInt64.not_le, UInt64.lt_iff_toNat_lt]
    refine and_congr_right fun hstate => and_congr_right fun _ => ?_
    have hhits := ht.hits hstate
    have hbelow := ht.below hstate
    omega
  · exact fun e => low_of_mem_earlierChecks
  · intro r now hfits
    rw [Fuse.trips_beforeStart_iff, UInt64.not_le, UInt64.lt_iff_toNat_lt,
      Reading.toNat_newNicBufferMb_add hfits]
  · exact fun c => Fuse.Trips.check
  · exact fun c hstate => Fuse.call_of_tripped hstate c
  · exact fun c hstate => Fuse.call_of_fused hstate c
  · exact Fuse.snap_calls
  · rw [Fuse.report_eq_fused, ht.snap, List.findSome?_isSome_iff]
    simp only [FuseEntry.isSome_snapshot?]
  · rintro r now hallowed hstate
    have hrefused : f.call cfg (.beforeStart r now) = (some false, f) := by
      unfold Fuse.call Fuse.beforeStart
      rw [hstate]
      rfl
    rw [hrefused] at hallowed
    cases hallowed
  · rintro enabled fused hallowed hstate
    rcases hcall : f.call cfg (.onStrategy enabled fused) with ⟨answer, f'⟩
    rw [hcall] at hallowed
    cases Fuse.move_of_call hcall with
    | strategyIgnored | strategyFused => cases hallowed
    | strategyAccepted enabled hnot => exact hnot hstate

/-- One failed check with a threshold of two arms the fuse, and the next one trips it. -/
theorem fuse_meets_spec_second_hit :
    let cfg : FuseConfig := ⟨1000000000, 2, 256⟩
    let cs : List FuseCall := [.onCheck ⟨100, 0, 64, 0, 1024⟩ 1, .onStrategy true false]
    (Fuse.new.calls cfg cs).state = .armed ∧
      FuseSpec cfg (Fuse.new.log cfg cs) (Fuse.new.calls cfg cs) ∧
      (Fuse.new.calls cfg cs).Trips cfg (.onCheck ⟨100, 0, 64, 0, 1024⟩ 2) := by
  intro cfg cs
  have hspec : FuseSpec cfg (Fuse.new.log cfg cs) (Fuse.new.calls cfg cs) := fuse_meets_spec rfl cs
  exact ⟨rfl, hspec, (hspec.check_trips _ _).mpr ⟨rfl, by decide, rfl⟩⟩

end CloudProbe.Daemon
