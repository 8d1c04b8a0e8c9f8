import CloudProbe.Daemon.TaskBuilder

/-!
# The worker process

The daemon's handle on a worker process (`Worker`). What the daemon does not decide (whether a file
is written, a process starts, a call is answered) comes in with `Outside`, one for each event. A
process that exited stays in the handle until it is waited for, and one that gets SIGKILL ends.

Sources without a file are in `worker/worker.go`.
-/

namespace CloudProbe.Daemon

/-- How writing the configuration file went: a failed create leaves the old file, a failed write
leaves no usable one.
Source: `writeConfig` -/
inductive WriteResult where
  | ok
  | createFailed (err : String)
  | writeFailed (err : String)
deriving DecidableEq

/-- How a command to a running worker went: it may fail before the worker takes it, or its answer
may be lost after the worker took it.
Source: `cpworker/unix_client.go` `RunCommand` -/
inductive CommandResult where
  | ok
  | refused (err : String)
  | unanswered (err : String)
deriving DecidableEq

/-- What the daemon does not decide, for one event. Errors are texts; `none` is success. -/
structure Outside where
  host : Host
  writeConfig : WriteResult
  startProcess : Except String ℕ
  cgroup : Option String
  reloadCommand : CommandResult
  signal : Option String
  memAvailable : Except String UInt64
  processRss : UInt64
  now : ℤ
  syncMetrics : Bool

/-- A process of the worker; `running` is false when it exited and was not waited for. -/
structure Process where
  pid : ℕ
  running : Bool
deriving DecidableEq

/-- The handle; `resLimit` says that a CPU limit was set up. `given` only watches: it is the
configuration that the process of this handle was last given, `none` when none was started.
Source: `Worker` -/
structure Worker where
  cmd : Option Process := none
  resLimit : Bool := false
  given : Option WorkerFile := none
deriving DecidableEq

/-- The file after a write, and the error.
Source: `writeConfig` -/
def writeConfig (o : Outside) (path : String) (cfg : WorkerFile) (file : Option WorkerFile) :
    Option String × Option WorkerFile :=
  match o.writeConfig with
  | .ok => (none, some cfg)
  | .createFailed err => (some ("create worker config file: " ++ path ++ ": " ++ err), file)
  | .writeFailed err => (some ("create worker config file: " ++ path ++ ": " ++ err), none)

namespace Worker

def pid (w : Worker) : ℕ :=
  match w.cmd with
  | none => 0
  | some process => process.pid

/-- Signal 0 finds a process until it has been waited for.
Source: `IsAlive` -/
def isAlive (o : Outside) (w : Worker) : Except String Bool :=
  match w.cmd, o.signal with
  | none, _ => .ok false
  | some _, none => .ok true
  | some _, some err => .error ("ambiguous process status: " ++ err)

def Running (w : Worker) : Prop := ∃ process, w.cmd = some process ∧ process.running = true

instance (w : Worker) : Decidable w.Running :=
  match h : w.cmd with
  | none => isFalse (by simp [Running, h])
  | some process => decidable_of_iff (process.running = true) (by simp [Running, h])

/-- The handle, the file and the error after a start. The process reads the file just written.
Source: `Start`, `startProcess` -/
def start (o : Outside) (path : String) (wCfg : WorkerFile) (file : Option WorkerFile)
    (w : Worker) :
    Option String × Worker × Option WorkerFile :=
  if w.cmd.isSome then (some "worker cpm is already running", w, file)
  else
    match writeConfig o path wCfg file with
    | (some err, file) => (some err, w, file)
    | (none, file) =>
      match o.startProcess with
      | .error err => (some ("start worker cpm failed: " ++ err), w, file)
      | .ok pid => (none, { w with cmd := some ⟨pid, true⟩, given := file }, file)

/-- SIGINT, then SIGKILL after ten seconds.
Source: `Stop`; `Kill` differs only in the first signal -/
def stop (w : Worker) : Worker := { w with cmd := none }

/-- The limit is set up for a positive value, and cleared when there was one before.
Source: `UpdateResLimit`, `createResLimit` -/
def updateResLimit (o : Outside) (cpu : Option ℚ) (w : Worker) : Option String × Worker :=
  if (cpu.filter (0 < ·)).isNone then
    if w.resLimit then
      match o.cgroup with
      | some err => (some ("clear previous cpu limit failed: " ++ err), w)
      | none => (none, w)
    else (none, w)
  else if w.cmd.isNone then (none, { w with resLimit := false })
  else
    match o.cgroup with
    | some err => (some ("create cpu limit failed: " ++ err), w)
    | none => (none, { w with resLimit := true })

/-- A running process reads the configuration file again. -/
def reread (file : Option WorkerFile) (w : Worker) : Worker :=
  if w.Running then { w with given := file } else w

/-- The `reload_config` command over the control channel; nobody answers for a worker that exited.
Source: `cpworker/unix_client.go` `ReloadConfig` -/
def reloadCommand (o : Outside) (file : Option WorkerFile) (w : Worker) : Option String × Worker :=
  if w.Running then
    match o.reloadCommand with
    | .ok => (none, w.reread file)
    | .refused err => (some err, w)
    | .unanswered err => (some err, w.reread file)
  else (some "dial failed", w)

/-- SIGHUP makes the worker reload; without a process nothing is sent and nothing is an error.
Source: `ReloadConfig` -/
def reloadConfig (o : Outside) (file : Option WorkerFile) (w : Worker) : Option String × Worker :=
  match w.cmd, o.signal with
  | none, _ => (none, w)
  | some process, some err =>
    (some ("send SIGHUP to worker failed, pid=" ++ toString process.pid ++ ": " ++ err), w)
  | some _, none => (none, w.reread file)

def exits (w : Worker) : Worker :=
  { w with cmd := w.cmd.map fun process => { process with running := false } }

/-- The process that exited is waited for, and the handle forgets it.
Source: `Start`, its goroutine after `cmd.Wait` -/
def reap (w : Worker) : Worker :=
  { w with cmd := w.cmd.filter fun process => process.running }

/-! ## What the operations do to a handle -/

/-- Whether setting the limits can fail: a limit has to be set up, or an old one cleared. -/
def LimitsOk (o : Outside) (cpu : Option ℚ) (w : Worker) : Prop :=
  (w.resLimit = true ∨ ∃ limit, cpu = some limit ∧ 0 < limit) → o.cgroup = none

instance (o : Outside) (cpu : Option ℚ) (w : Worker) : Decidable (w.LimitsOk o cpu) :=
  match cpu with
  | none => decidable_of_iff (w.resLimit = true → o.cgroup = none) (by simp [LimitsOk])
  | some limit =>
    decidable_of_iff (w.resLimit = true ∨ 0 < limit → o.cgroup = none) (by simp [LimitsOk])

variable {w : Worker}

/-- Setting the limits succeeds or fails as the system says. -/
theorem updateResLimit_cases (o : Outside) (cpu : Option ℚ) (hcmd : w.cmd ≠ none) :
    (w.LimitsOk o cpu ∧ ∃ limited, w.updateResLimit o cpu =
      (none, { w with resLimit := limited })) ∨
      (¬ w.LimitsOk o cpu ∧ ∃ err, w.updateResLimit o cpu = (some err, w)) := by
  have hnone : w.cmd.isNone = false := by
    rw [Option.isNone_eq_false_iff, Option.isSome_iff_ne_none]
    exact hcmd
  have hlimit : (cpu.filter (0 < ·)).isNone = true ↔ ¬ ∃ limit, cpu = some limit ∧ 0 < limit := by
    cases cpu <;> simp
  unfold updateResLimit LimitsOk
  by_cases hcpu : ∃ limit, cpu = some limit ∧ 0 < limit
  · rw [if_neg fun h => hlimit.mp h hcpu, hnone]
    cases o.cgroup with
    | none => exact .inl ⟨fun _ => rfl, true, rfl⟩
    | some err => exact .inr ⟨by simp [hcpu], _, rfl⟩
  · rw [if_pos (hlimit.mpr hcpu)]
    cases hres : w.resLimit with
    | false => exact .inl ⟨by simp [hcpu], false, by simp [← hres]⟩
    | true =>
      cases o.cgroup with
      | none => exact .inl ⟨fun _ => rfl, true, by simp [← hres]⟩
      | some err => exact .inr ⟨by simp, _, rfl⟩

theorem isAlive_of_none (hcmd : w.cmd = none) (o : Outside) :
    w.isAlive o = .ok false := by
  unfold isAlive
  rw [hcmd]

theorem isAlive_of_ne_none (hcmd : w.cmd ≠ none) (o : Outside) :
    w.isAlive o = .ok true ∨ ∃ err, w.isAlive o = .error err := by
  unfold isAlive
  obtain ⟨process, hprocess⟩ := Option.ne_none_iff_exists'.mp hcmd
  rw [hprocess]
  cases o.signal with
  | none => exact .inl rfl
  | some err => exact .inr ⟨_, rfl⟩

theorem start_of_ok {o : Outside} {pid : ℕ} (hwrite : o.writeConfig = .ok)
    (hstart : o.startProcess = .ok pid) (path : String) (wCfg : WorkerFile)
    (file : Option WorkerFile) :
    ({} : Worker).start o path wCfg file =
      (none, { cmd := some ⟨pid, true⟩, given := some wCfg }, some wCfg) := by
  simp [start, writeConfig, hwrite, hstart]

theorem reloadCommand_of_not_running (hw : ¬ w.Running) (o : Outside) (file : Option WorkerFile) :
    w.reloadCommand o file = (some "dial failed", w) :=
  if_neg hw

theorem reloadCommand_of_running (hw : w.Running) (o : Outside) (file : Option WorkerFile) :
    w.reloadCommand o file =
      match o.reloadCommand with
      | .ok => (none, w.reread file)
      | .refused err => (some err, w)
      | .unanswered err => (some err, w.reread file) :=
  if_pos hw

end Worker

end CloudProbe.Daemon
