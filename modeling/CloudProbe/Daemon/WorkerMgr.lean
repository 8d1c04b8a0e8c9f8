import CloudProbe.Daemon.Process
import Mathlib.Data.UInt

/-!
# The worker manager

The manager holds at most one worker and applies strategies to it, by restarting it or by making it
reload. The start gate is asked right before the capture ring is allocated; it is a parameter with a
state of its own, because the fuse behind it may trip.

* **Configuration** (`WorkerConfig.validate`, `Setup`), with the check it passed.
* **Tasks and rings** (`buildTasks`, `newWorkerConfig`, `newRingCfgMb`).
* **Operations** (`createUnlocked`, `reloadConfig`, `update`, `createIfDead`, `stopWorker`), each
  with its error paths: an error may leave the handle of a process that is gone.

Sources without a file are in `cpm/worker_mgr.go`.
-/

namespace CloudProbe.Daemon

/-! ## Configuration -/

/-- Source: `UpdatePolicyRestart`, `UpdatePolicyReload` -/
inductive UpdatePolicy where
  | restart
  | reload
  | other (name : String)
deriving DecidableEq

/-- Source: `MemoryPolicyAutoNicBuffer`, `MemoryPolicyFixedNicBuffer` -/
inductive MemoryPolicy where
  | autoNicBuffer
  | fixedNicBuffer
  | other (name : String)
deriving DecidableEq

structure MemoryConfig where
  policy : MemoryPolicy
  defaultLimitMb : UInt64
  fixedBufferSizeMb : UInt64
deriving DecidableEq

structure WorkerConfig where
  configFile : String
  cpuAffinity : String
  logLevel : String
  control : ControlConfig
  executionModel : ExecutionModel
  minBufferSizeMb : UInt64
  updatePolicy : UpdatePolicy
  memory : MemoryConfig
deriving DecidableEq

/-- The upper case of a character, as far as it is an ASCII letter. Of the characters outside ASCII
only the dotless i and the long s become one.
Source: `strings.ToUpper`, of one character -/
def goToUpper (c : Char) : Char :=
  if c = 'ı' then 'I' else if c = 'ſ' then 'S' else c.toUpper

/-- Source: `WorkerConfig.Validate`, its first check -/
def checkLogLevel (logLevel : String) : Except String Unit :=
  if (["DEBUG", "INFO", "WARN", "ERROR"].map String.toList).contains
      (logLevel.toList.map goToUpper) then .ok ()
  else .error ("invalid logLevel: " ++ logLevel)

/-- Source: `WorkerConfig.Validate`, its second check -/
def ControlConfig.check : ControlConfig → Except String Unit
  | .unix path => if path.all (· = "") then .error "require control.unix.path" else .ok ()
  | .other name => .error ("invalid control.type: " ++ name)

/-- Source: `WorkerConfig.Validate`, its third check -/
def ExecutionModel.check : ExecutionModel → Except String Unit
  | .rtc | .pipeline => .ok ()
  | .other name => .error ("invalid execution_model: " ++ name)

/-- Source: `WorkerConfig.Validate`, its fourth check -/
def MemoryConfig.check (memory : MemoryConfig) : Except String Unit :=
  match memory.policy with
  | .fixedNicBuffer =>
    if memory.fixedBufferSizeMb = 0 then
      .error ("memoryPolicy.libpcap.bufferSizeMb must be greater than 0 when strategy is " ++
        "'fixed_nic_buffer'")
    else .ok ()
  | .autoNicBuffer => .ok ()
  | .other name => .error ("invalid memoryPolicy.strategy: " ++ name)

/-- Source: `WorkerConfig.Validate`, its fifth check -/
def UpdatePolicy.check : UpdatePolicy → Except String Unit
  | .reload | .restart => .ok ()
  | .other name => .error ("invalid updatePolicy: " ++ name)

/-- Source: `WorkerConfig.Validate`, without the control group version -/
def WorkerConfig.validate (c : WorkerConfig) : Except String Unit := do
  checkLogLevel c.logLevel
  c.control.check
  c.executionModel.check
  c.memory.check
  c.updatePolicy.check

theorem bind_eq_ok {a : Except String Unit} {b : Unit → Except String Unit} :
    (a >>= b) = .ok () ↔ a = .ok () ∧ b () = .ok () := by
  rw [bind_eq_ok_iff]
  exact ⟨fun ⟨_, ha, hb⟩ => ⟨ha, hb⟩, fun ⟨ha, hb⟩ => ⟨(), ha, hb⟩⟩

theorem WorkerConfig.validate_eq_ok {c : WorkerConfig} :
    c.validate = .ok () ↔ checkLogLevel c.logLevel = .ok () ∧ c.control.check = .ok () ∧
      c.executionModel.check = .ok () ∧ c.memory.check = .ok () ∧
      c.updatePolicy.check = .ok () := by
  unfold WorkerConfig.validate
  rw [bind_eq_ok, bind_eq_ok, bind_eq_ok, bind_eq_ok]

/-- What is fixed while the manager runs. The configuration has passed its check. -/
structure Setup where
  workerCfg : WorkerConfig
  packages : Packages
  daemonUUID : String
  valid : workerCfg.validate = .ok ()

/-! ## Tasks and rings -/

/-- Errors of the manager. `fingerprintLoop` is the fingerprint search that `freshFingerprint` gives
up; the loop of the source goes on. Source: `ErrStartRefused`, and errors made of text -/
inductive MgrError where
  | startRefused
  | fingerprintLoop
  | text (message : String)
deriving DecidableEq

structure WorkerCreateResult where
  warnings : List String
  buffSizePerTask : UInt64
deriving DecidableEq

structure TaskBuildResult where
  tasks : List TaskConfig
  warnings : List String
  buffSizePerTask : UInt64
deriving DecidableEq

def getTaskBufferSizeMb (memory : MemoryConfig) (res : SyncStrategyResponse)
    (activeInstances : List String) : Except MgrError UInt64 :=
  match memory.policy with
  | .fixedNicBuffer => .ok memory.fixedBufferSizeMb
  | .autoNicBuffer =>
    let numItems := res.numItems activeInstances
    if numItems = 0 then .ok 0
    else
      let memLimit := res.effectiveMemLimitMb memory.defaultLimitMb
      if memLimit < numItems.toUInt64 then
        .error (.text ("memory limit " ++ toString memLimit ++ " MB is too small for " ++
          toString numItems ++ " tasks"))
      else .ok (memLimit / numItems.toUInt64)
  | .other name => .error (.text ("unknown memoryPolicy.strategy: " ++ name))

/-- The configured capture buffer of all tasks of the strategy.
Source: `NicBufferTotalMb` -/
def nicBufferTotalMb (memory : MemoryConfig) (res : SyncStrategyResponse)
    (activeInstances : List String) : Except MgrError UInt64 := do
  let perTask ← getTaskBufferSizeMb memory res activeInstances
  return perTask * (res.numItems activeInstances).toUInt64

def buildTasks (d : Setup) (host : Host) (res : SyncStrategyResponse)
    (activeInstances : List String) : Except MgrError TaskBuildResult :=
  if res.numItems activeInstances = 0 then .ok ⟨[], [], 0⟩
  else
    match getTaskBufferSizeMb d.workerCfg.memory res activeInstances with
    | .error err => .error err
    | .ok buffSizePerTask =>
      let tb := res.strategy.foldl (WorkerTaskBuilder.addStrategy d.packages)
        { host, daemonUUID := d.daemonUUID, activeInstances, buffSize := buffSizePerTask }
      match tb.build d.packages with
      | none => .error .fingerprintLoop
      | some (tasks, warnings) => .ok ⟨tasks, warnings, buffSizePerTask⟩

/-- The configured ring of one task; 256 is the worker's own default.
Source: `ringCfgMb`, the function it maps -/
def TaskConfig.ringCfgMb (task : TaskConfig) : UInt64 :=
  if task.capturer.type = "libpcap" then
    (task.capturer.libpcap.bind LibpcapConfig.bufferSizeMb).getD 256
  else 0

def ringCfgMb (tasks : List TaskConfig) : UInt64 := (tasks.map TaskConfig.ringCfgMb).sum

/-- The ring of the tasks of `next` that `current` does not run, by fingerprint.
Source: `newRingCfgMb` -/
def newRingCfgMb (current next : List TaskConfig) : UInt64 :=
  let running := current.filterMap TaskConfig.fingerprint
  ringCfgMb (next.filter fun task => task.fingerprint.all fun fingerprint => fingerprint ∉ running)

def newWorkerConfig (c : WorkerConfig) (tasks : List TaskConfig) (res : SyncStrategyResponse) :
    WorkerFile where
  cpuAffinity := if c.cpuAffinity = "" then none else some c.cpuAffinity
  logLevel := c.logLevel
  executionModel := c.executionModel
  pipelineBufferSizeMb :=
    if c.executionModel = .pipeline then
      let taskMem := ringCfgMb tasks
      let memLimit := res.effectiveMemLimitMb c.memory.defaultLimitMb
      some (if taskMem < memLimit ∧ c.minBufferSizeMb < memLimit - taskMem then memLimit - taskMem
        else c.minBufferSizeMb)
    else none
  control := c.control
  tasks := tasks

/-! ## The client -/

/-- Source: `worker/config.go` `ControlConfig.ConnectString` -/
def ControlConfig.connectString : ControlConfig → List Char
  | .unix path => "unix://".toList ++ (path.getD "").toList
  | .other _ => []

/-- Source: `cpworker/unix_client.go` `UnixClient` -/
structure Client where
  socketPath : List Char
deriving DecidableEq

/-- Source: `cpworker/client.go` `NewClientWithTimeout` -/
def newClient (connStr : List Char) : Except String Client :=
  match cutScheme connStr with
  | some (typ, addr) =>
    if typ = "unix".toList then .ok ⟨addr⟩
    else .error ("invalid connStr: " ++ String.ofList connStr)
  | none => .error ("invalid connStr: " ++ String.ofList connStr)

/-! ## Operations -/

/-- What an apply is about to allocate in the kernel capture ring; `pid` is 0 without a worker.
Source: `RingAlloc` -/
structure RingAlloc where
  newCfgMb : UInt64
  totalCfgMb : UInt64
  memLimitMb : UInt64
  pid : ℕ
deriving DecidableEq

/-- Source: `StartGate`, with the state of what is behind it -/
abbrev StartGate (γ : Type) := RingAlloc → γ → Bool × γ

/-- The state of the manager, with the configuration file on disk. Two fields only watch: `starts`
counts the processes started, `lost` has those that ran when their handle was dropped.
Source: `WorkerManager` -/
structure WorkerManager where
  client : Option Client := none
  worker : Option Worker := none
  current : List TaskConfig := []
  configFile : Option WorkerFile := none
  starts : ℕ := 0
  lost : List Process := []
deriving DecidableEq

structure Applied (γ : Type) where
  result : Except MgrError WorkerCreateResult
  mgr : WorkerManager
  gate : γ

namespace WorkerManager

def process? (m : WorkerManager) : Option Process :=
  (m.worker.bind Worker.cmd).filter fun process => process.running

/-- A process that the manager started runs, with or without a handle. -/
def Alive (m : WorkerManager) : Prop := m.process?.isSome = true ∨ m.lost ≠ []

instance (m : WorkerManager) : Decidable m.Alive := inferInstanceAs (Decidable (_ ∨ _))

/-- The handle is dropped, whatever its process does.
Source: `reset` -/
def reset (m : WorkerManager) : WorkerManager :=
  { m with worker := none, current := [], client := none, lost := m.lost ++ m.process?.toList }

/-- The process is stopped and the handle dropped. Stopping a process returns no error.
Source: `stopWorker`; `Stop` and `Kill` do the same with the current worker -/
def stopWorker (m : WorkerManager) : WorkerManager :=
  match m.worker with
  | none => m
  | some w => { m with worker := some w.stop }.reset

def isAlive (o : Outside) (m : WorkerManager) : Except String Bool :=
  match m.worker with
  | none => .ok false
  | some w => w.isAlive o

def pid (m : WorkerManager) : ℕ :=
  match m.worker with
  | none => 0
  | some w => w.pid

/-- The limits of the strategy; when they cannot be set the worker is stopped, and its handle stays.
Source: the end of `createUnlocked` and of `reloadConfig` -/
def limitWorker (o : Outside) (res : SyncStrategyResponse) (w : Worker) (m : WorkerManager) :
    Option MgrError × WorkerManager :=
  match w.updateResLimit o res.cpuLimit with
  | (some err, w) => (some (.text err), { m with worker := some w.stop })
  | (none, w) => (none, { m with worker := some w })

/-- The error of creating the directory of the control socket. The check of the configuration
requires its path.
Source: `createUnlocked` -/
def socketDirError (control : ControlConfig) (host : Host) : Option String :=
  match control with
  | .unix path =>
    let socketDir := String.ofList (dirPath (cleanPath (path.getD "").toList))
    (host.mkdirAll socketDir).map fun err => "create dir " ++ socketDir ++ " failed: " ++ err
  | .other _ => none

/-- The start itself. A failed start leaves the handle and the client.
Source: `createUnlocked`, from the start gate on -/
def launch (d : Setup) (o : Outside) (res : SyncStrategyResponse) (tasks : List TaskConfig)
    (m : WorkerManager) : Option MgrError × WorkerManager :=
  match socketDirError d.workerCfg.control o.host with
  | some err => (some (.text err), m)
  | none =>
    match newClient d.workerCfg.control.connectString with
    | .error err =>
      (some (.text ("create worker client failed: " ++ err)), { m with client := none })
    | .ok client =>
      let wCfg := newWorkerConfig d.workerCfg tasks res
      match ({} : Worker).start o d.workerCfg.configFile wCfg m.configFile with
      | (some err, w, file) =>
        (some (.text err),
          { m with client := some client, worker := some w, configFile := file })
      | (none, w, file) =>
        limitWorker o res w { m with
          client := some client, worker := some w, current := tasks, configFile := file,
          starts := m.starts + 1 }

def finish {γ : Type} (built : TaskBuildResult) (g : γ) (done : Option MgrError × WorkerManager) :
    Applied γ where
  result := match done.1 with
    | some err => .error err
    | none => .ok ⟨built.warnings, built.buffSizePerTask⟩
  mgr := done.2
  gate := g

variable {γ : Type}

def createUnlocked (d : Setup) (gate : StartGate γ) (o : Outside) (res : SyncStrategyResponse)
    (activeInstances : List String) (m : WorkerManager) (g : γ) : Applied γ :=
  if m.worker.isSome then ⟨.error (.text "worker is already exists"), m, g⟩
  else
    match buildTasks d o.host res activeInstances with
    | .error err => ⟨.error err, m, g⟩
    | .ok built =>
      if built.tasks = [] then ⟨.ok ⟨built.warnings, 0⟩, m, g⟩
      else
        let ringMb := ringCfgMb built.tasks
        let asked := gate ⟨ringMb, ringMb,
          res.effectiveMemLimitMb d.workerCfg.memory.defaultLimitMb, 0⟩ g
        if asked.1 then finish built asked.2 (launch d o res built.tasks m)
        else ⟨.error .startRefused, m, asked.2⟩

/-- The gate is asked only when the reload opens a ring.
Source: `reloadConfig` -/
def askReload (d : Setup) (gate : StartGate γ) (o : Outside) (res : SyncStrategyResponse)
    (tasks : List TaskConfig) (w : Worker) (m : WorkerManager) (g : γ) : Bool × γ :=
  let newMb := newRingCfgMb m.current tasks
  if 0 < newMb then
    gate ⟨newMb, ringCfgMb tasks, res.effectiveMemLimitMb d.workerCfg.memory.defaultLimitMb,
      if w.isAlive o matches .ok true then w.pid else 0⟩ g
  else (true, g)

/-- The reload itself: the file is written, the worker is told, and then the limits are set.
Source: `reloadConfig`, from the start gate on -/
def reloadWorker (d : Setup) (o : Outside) (res : SyncStrategyResponse) (tasks : List TaskConfig)
    (w : Worker) (m : WorkerManager) : Option MgrError × WorkerManager :=
  let wCfg := newWorkerConfig d.workerCfg tasks res
  match writeConfig o d.workerCfg.configFile wCfg m.configFile with
  | (some err, file) => (some (.text err), { m with configFile := file })
  | (none, file) =>
    let m := { m with configFile := file }
    let told := match m.client with
      | some _ =>
        let answer := w.reloadCommand o file
        (answer.1.map fun err => "send reload_config command failed: " ++ err, answer.2)
      | none => w.reloadConfig o file
    match told with
    | (some err, w) => (some (.text err), { m with worker := some w })
    | (none, w) => limitWorker o res w { m with current := tasks }

def reloadConfig (d : Setup) (gate : StartGate γ) (o : Outside) (res : SyncStrategyResponse)
    (activeInstances : List String) (w : Worker) (m : WorkerManager) (g : γ) : Applied γ :=
  match buildTasks d o.host res activeInstances with
  | .error err => ⟨.error err, m, g⟩
  | .ok built =>
    if built.tasks = [] then ⟨.ok ⟨built.warnings, 0⟩, m.stopWorker, g⟩
    else
      let asked := askReload d gate o res built.tasks w m g
      if asked.1 then finish built asked.2 (reloadWorker d o res built.tasks w m)
      else ⟨.error .startRefused, m, asked.2⟩

def updateByRestart (d : Setup) (gate : StartGate γ) (o : Outside) (res : SyncStrategyResponse)
    (activeInstances : List String) (m : WorkerManager) (g : γ) : Applied γ :=
  m.stopWorker.createUnlocked d gate o res activeInstances g

def updateByReload (d : Setup) (gate : StartGate γ) (o : Outside) (res : SyncStrategyResponse)
    (activeInstances : List String) (m : WorkerManager) (g : γ) : Applied γ :=
  match m.worker with
  | none => m.createUnlocked d gate o res activeInstances g
  | some w => m.reloadConfig d gate o res activeInstances w g

def update (d : Setup) (gate : StartGate γ) (o : Outside) (res : SyncStrategyResponse)
    (activeInstances : List String) (m : WorkerManager) (g : γ) : Applied γ :=
  match d.workerCfg.updatePolicy with
  | .restart => m.updateByRestart d gate o res activeInstances g
  | .reload => m.updateByReload d gate o res activeInstances g
  | .other name => ⟨.error (.text ("unknown update policy: " ++ name)), m, g⟩

def createIfDead (d : Setup) (gate : StartGate γ) (o : Outside) (res : SyncStrategyResponse)
    (activeInstances : List String) (m : WorkerManager) (g : γ) : Applied γ :=
  match m.worker with
  | none => m.createUnlocked d gate o res activeInstances g
  | some w =>
    match w.isAlive o with
    | .error err => ⟨.error (.text err), m, g⟩
    | .ok true => ⟨.error (.text "worker is still running"), m, g⟩
    | .ok false => m.reset.createUnlocked d gate o res activeInstances g

end WorkerManager

end CloudProbe.Daemon
