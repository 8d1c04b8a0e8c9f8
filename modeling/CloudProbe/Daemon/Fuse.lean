import Mathlib.Data.Int.Notation
import Mathlib.Tactic.Common

/-!
# The memory fuse

The daemon stops the worker, or does not start it, when the host is short of memory. The fuse is the
state machine that decides this; it does no I/O, and the syncer calls it. A `Reading` is what was
measured, with the ring size estimated as twice the configured buffer, in 64-bit words that wrap.

Sources without a file are in `memfuse/fuse.go`.
-/

namespace CloudProbe.Daemon

/-- Source: `Config`. `checkInterval` is in nanoseconds. -/
structure FuseConfig where
  checkInterval : ℤ
  failThreshold : ℤ
  minAvailableMb : UInt64

/-- Source: `Config.Validate` -/
def FuseConfig.validate (c : FuseConfig) : Except String Unit :=
  if c.checkInterval ≤ 0 then .error "mem_fuse.check_interval must be > 0"
  else if c.failThreshold < 1 then .error "mem_fuse.fail_threshold must be >= 1"
  else .ok ()

/-- `tripped`: the worker was stopped, but CPM has not acknowledged the report yet. `fused`: CPM
has the fuse on record; only an administrator's clear releases it.
Source: `State` -/
inductive FuseState where
  | disabled
  | armed
  | tripped
  | fused
deriving DecidableEq

/-- Source: `Reason` -/
inductive FuseReason where
  | startup
  | runtime
deriving DecidableEq

/-- What the caller measured and derived from the current strategy.
Source: `Reading` -/
structure Reading where
  memAvailableMb : UInt64
  workerRssMb : UInt64
  nicBufferCfgMb : UInt64
  newNicBufferCfgMb : UInt64
  memLimitMb : UInt64
deriving DecidableEq

/-- The estimated upper bound of the resident kernel ring of a configured buffer.
Source: `NicBufferMb` -/
def nicBufferMb (cfgMb : UInt64) : UInt64 := cfgMb * 2

/-- Source: `Reading.NewNicBufferMb` -/
def Reading.newNicBufferMb (r : Reading) : UInt64 := nicBufferMb r.newNicBufferCfgMb

/-- The reading of the moment the fuse tripped.
Source: `Snapshot` -/
structure Snapshot where
  reason : FuseReason
  fusedAt : ℤ
  reading : Reading
deriving DecidableEq

/-- Source: `Fuse`; its configuration is an argument of the operations -/
structure Fuse where
  state : FuseState
  enabled : Bool
  hits : ℕ
  snap : Option Snapshot
deriving DecidableEq

namespace Fuse

def new : Fuse where
  state := .disabled
  enabled := false
  hits := 0
  snap := none

@[simp] theorem state_new : new.state = .disabled := rfl

/-- The switch and the fuse state of a changed strategy; the answer says whether the strategy may be
applied. While tripped the fields of CPM are ignored.
Source: `Fuse.OnStrategy` -/
def onStrategy (f : Fuse) (enabled fused : Bool) : Bool × Fuse :=
  let f := { f with enabled }
  if f.state = .tripped then (false, f)
  else if fused then (false, { f with state := .fused, hits := 0 })
  else (true, { f with snap := none, hits := 0, state := if enabled then .armed else .disabled })

/-- Source: `Fuse.trip` -/
def trip (f : Fuse) (reason : FuseReason) (r : Reading) (now : ℤ) : Fuse :=
  { f with state := .tripped, snap := some ⟨reason, now, r⟩ }

@[simp] theorem state_trip (f : Fuse) (reason : FuseReason) (r : Reading) (now : ℤ) :
    (f.trip reason r now).state = .tripped := rfl

@[simp] theorem snap_trip (f : Fuse) (reason : FuseReason) (r : Reading) (now : ℤ) :
    (f.trip reason r now).snap = some ⟨reason, now, r⟩ := rfl

/-- The startup check: the ring about to be allocated and the reserve must both fit.
Source: `Fuse.BeforeStart` -/
def beforeStart (cfg : FuseConfig) (f : Fuse) (r : Reading) (now : ℤ) : Bool × Fuse :=
  match f.state with
  | .disabled => (true, f)
  | .tripped | .fused => (false, f)
  | .armed =>
    if r.newNicBufferMb + cfg.minAvailableMb ≤ r.memAvailableMb then (true, f)
    else (false, f.trip .startup r now)

/-- One runtime check; the answer says whether it tripped the fuse.
Source: `Fuse.OnCheck`, without the counts of its `Check` result, which only the
log reads -/
def onCheck (cfg : FuseConfig) (f : Fuse) (r : Reading) (now : ℤ) : Bool × Fuse :=
  if f.state ≠ .armed then (false, f)
  else if cfg.minAvailableMb ≤ r.memAvailableMb then (false, { f with hits := 0 })
  else
    let f := { f with hits := f.hits + 1 }
    if cfg.failThreshold ≤ f.hits then (true, f.trip .runtime r now) else (false, f)

/-- A metrics report was acknowledged.
Source: `Fuse.OnReportAck` -/
def onReportAck (f : Fuse) : Bool × Fuse :=
  if f.state ≠ .tripped then (false, f) else (true, { f with state := .fused })

/-- The daemon id changed, so CPM keeps a separate record for the new one.
Source: `Fuse.Reset` -/
def reset (_ : Fuse) : Fuse := new

/-- What is reported to CPM. A fused state restored from CPM has no snapshot and is reported as the
normal state.
Source: `Fuse.Report` -/
def report (f : Fuse) : FuseState × Option Snapshot :=
  match f.snap with
  | some snap => (.fused, some snap)
  | none =>
    if f.state = .armed ∨ f.state = .fused ∧ f.enabled = true then (.armed, none)
    else (.disabled, none)

end Fuse

end CloudProbe.Daemon
