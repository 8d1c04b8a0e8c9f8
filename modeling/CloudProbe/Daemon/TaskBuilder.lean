import CloudProbe.Daemon.Fingerprint
import CloudProbe.Daemon.Text

/-!
# The task builder

How the daemon turns strategies into worker tasks. A strategy that the worker would reject
(`validateStrategy`), or an item that cannot be resolved, becomes a warning and drops only itself.
`Host` is what the host answers, `Packages` what comes from elsewhere: flag parsing, and the hash of
a label map.

Sources without a file are in `cpm/worker_task_builder.go`.
-/

namespace CloudProbe.Daemon

/-- Source: `startupArgs`, without the two fields no task uses -/
structure StartupArgs where
  snaplen : Option ℤ := none
  timeout : Option ℤ := none
  bindDevice : Option String := none
  pmtudisc : Option String := none
  zmqHwm : Option ℤ := none
  noFilter : Option Bool := none
deriving DecidableEq

/-- What the host answers to the builder: lookups of containers and virtual machines, and the error
of creating a directory, if any.
Source: `cpm/syncer.go` `Tool`, `os.MkdirAll` -/
structure Host where
  getContainerHostPid : String → Except String ℤ
  getKvmInstances : Except String (List String)
  getKvmInstanceNics : String → Except String (List String)
  mkdirAll : String → Option String

/-- What the builder takes from elsewhere. `flagParse` gives the values of the flags set before the
parser returned, and its error; `hash` is the fingerprint of a label map.
Source: `pflag` `FlagSet.Parse`, `common` `LabelsToFingerprint(_).UUID().String()` -/
structure Packages where
  flagParse : List String → StartupArgs × Option String
  hash : Labels → String

def parseStartup (pk : Packages) (startup : String) (ignoreUnknown : Bool) :
    Except String StartupArgs := do
  let args ← splitArgs startup
  match pk.flagParse args with
  | (res, none) => return res
  | (res, some err) =>
    if isUnknownFlagError err && ignoreUnknown then return res else throw err

/-- The arguments of a strategy; without any, nothing is set.
Source: `newTaskConfig`, its `startupArgs` -/
def strategyArgs (pk : Packages) (strategy : StrategyEntry) : Except String StartupArgs :=
  match strategy.startup with
  | none => .ok {}
  | some startup =>
    (parseStartup pk startup true).mapError fun err =>
      "parse startup failed: " ++ startup ++ ": " ++ err

/-! ## Checks -/

theorem bind_eq_ok_iff {ε α β : Type} {x : Except ε α} {f : α → Except ε β} {r : β} :
    (x >>= f) = .ok r ↔ ∃ a, x = .ok a ∧ f a = .ok r := by
  rcases x with err | a
  · refine ⟨fun h => ?_, ?_⟩
    · cases h
    · rintro ⟨a, h, -⟩
      cases h
  · refine ⟨fun h => ⟨a, rfl, h⟩, ?_⟩
    rintro ⟨a', h, hf⟩
    obtain rfl := Except.ok.inj h
    exact hf

def checkAtLeast (what : String) (low value : ℤ) : Except String Unit :=
  if value < low then
    .error ("invalid " ++ what ++ " " ++ toString value ++ ": must be >= " ++ toString low)
  else .ok ()

def checkBetween (what : String) (low high value : ℤ) : Except String Unit :=
  if value < low ∨ high < value then
    .error ("invalid " ++ what ++ " " ++ toString value ++ ": must be between " ++ toString low ++
      " and " ++ toString high)
  else .ok ()

def checkIfSet {α : Type} (value : Option α) (check : α → Except String Unit) :
    Except String Unit :=
  match value with
  | none => .ok ()
  | some v => check v

def maxPort : ℤ := 65535

def maxPacketSplitBytes : ℤ := 65535

def maxZmqHeartbeatMs : ℤ := 60000

def pmtudiscOptions : List String := ["do", "dont", "want"]

def checkIPv4Address (address : String) : Except String Unit :=
  if isIPv4 address then .ok ()
  else .error ("invalid address " ++ address.quote ++ ": must be an IPv4 address")

def checkPort (port : Int32) : Except String Unit := checkBetween "port" 1 maxPort port.toInt

def checkPmtudisc (pmtudisc : Option String) : Except String Unit :=
  checkIfSet pmtudisc fun option =>
    if pmtudiscOptions.contains option then .ok ()
    else .error ("invalid startup --pmtudisc_option " ++ option.quote ++ ": must be one of " ++
      ", ".intercalate pmtudiscOptions)

def usesVni1 (strategy : StrategyEntry) : Bool :=
  strategy.apiVersion = none || strategy.apiVersion = some "v1"

/-- Source: `validateStrategy`, its `checkServiceTag` -/
def checkServiceTag (strategy : StrategyEntry) : Except String Unit :=
  if strategy.hasServiceTag then
    checkIfSet strategy.serviceTag fun tag => checkAtLeast "serviceTag" 0 tag.toInt
  else .ok ()

/-- The checks of the output that the channel type selects.
Source: `validateStrategy`, its switch -/
def validateChannel (strategy : StrategyEntry) (args : StartupArgs) : Except String Unit :=
  match strategy.packetChannelType with
  | .vxlan => do
    checkIPv4Address strategy.address
    checkIfSet strategy.port checkPort
    checkPmtudisc args.pmtudisc
    if strategy.hasPacketSplit then
      checkIfSet strategy.packetSplitBytes fun bytes =>
        checkBetween "packetSplitBytes" 0 maxPacketSplitBytes bytes.toInt
    if usesVni1 strategy then checkServiceTag strategy
  | .gre => do
    checkIPv4Address strategy.address
    checkPmtudisc args.pmtudisc
    checkServiceTag strategy
  | .zmq => do
    if strategy.address = "" then throw "invalid address: must not be empty"
    match strategy.port with
    | none => throw "missing zmq.port"
    | some port => checkPort port
    checkIfSet args.zmqHwm (checkAtLeast "startup --zmq_hwm" 0)
    checkIfSet strategy.zmqHeartbeatMs fun ms =>
      checkBetween "zmqHeartbeatMs" 0 maxZmqHeartbeatMs ms.toInt
    checkServiceTag strategy
  | .file =>
    checkIfSet strategy.dumpInterval fun interval => checkAtLeast "dumpInterval" 0 interval.toInt
  | .other _ => .ok ()

/-- Rejects the values that the worker would reject: the worker refuses the whole configuration when
one task is invalid.
Source: `validateStrategy` -/
def validateStrategy (strategy : StrategyEntry) (args : StartupArgs) : Except String Unit := do
  checkIfSet args.timeout (checkAtLeast "startup --timeout" 0)
  if strategy.reqPatternType = some .custom && strategy.reqPattern.all isBlank then
    throw "invalid reqPattern: a CUSTOM req pattern must not be empty"
  validateChannel strategy args

/-! ## Tasks -/

inductive TaskType where
  | interface
  | container
  | kvmInstance
deriving DecidableEq

/-- Source: `taskItem`; no `netns` is the empty text -/
structure TaskItem where
  typ : TaskType
  nicName : String
  netns : String := ""
  obsIdx : ℕ
  dumpSubDirs : List String := []
deriving DecidableEq

structure Vni2Tag where
  resourcePointDirection : UInt32
  observationPointId : UInt32
  extensionFlag : UInt32
  observationDomainId : UInt32

/-- Two bits of direction, five of the point, one flag, and 24 of the domain.
Source: `Vni2Tag.Encode` -/
def Vni2Tag.encode (t : Vni2Tag) : UInt32 :=
  (t.resourcePointDirection &&& (0x03 : UInt32)) |||
    ((t.observationPointId &&& (0x1F : UInt32)) <<< (2 : UInt32)) |||
    ((t.extensionFlag &&& (0x01 : UInt32)) <<< (7 : UInt32)) |||
    ((t.observationDomainId &&& (0x00FFFFFF : UInt32)) <<< (8 : UInt32))

/-- The tag of an item: its own observation ids, or 1 where the strategy has none for it.
Source: `newTaskConfig` -/
def vni2Tag (strategy : StrategyEntry) (item : TaskItem) : Vni2Tag where
  resourcePointDirection := 0
  observationPointId :=
    if strategy.hasObservationTag then
      ((strategy.observationPointIds[item.obsIdx]?).map UInt8.toUInt32).getD 1
    else 1
  extensionFlag :=
    if strategy.hasExtensionFlag then
      (strategy.extensionFlag.map fun flag => flag.toInt32.toUInt32).getD 0
    else 0
  observationDomainId :=
    if strategy.hasObservationTag then (strategy.observationDomainIds[item.obsIdx]?).getD 1 else 1

/-- The service tag, when the strategy has one.
Source: `newTaskConfig` -/
def serviceTag (strategy : StrategyEntry) : Option UInt32 :=
  if strategy.hasServiceTag then strategy.serviceTag.map Int32.toUInt32 else none

/-- Source: `newTaskConfig`, the VXLAN case of its switch -/
def vxlanOutput (strategy : StrategyEntry) (args : StartupArgs) (item : TaskItem) :
    VxlanOutputConfig where
  host := strategy.address
  port := strategy.port
  captureTime := strategy.capTime.map fun capTime => decide (capTime = 1)
  vni1 := if usesVni1 strategy then some ((serviceTag strategy).getD 0xffffff) else none
  vni2 := if usesVni1 strategy then none else some (vni2Tag strategy item).encode
  bindDevice := args.bindDevice
  pmtudisc := args.pmtudisc
  split :=
    if strategy.hasPacketSplit then
      some ⟨strategy.packetSplitBytes, if strategy.recalculateChecksum then some true else none⟩
    else none

/-- A value is passed on only when it is positive.
Source: `newTaskConfig`, `SliceLen` and `ForwardRateLimit` -/
def positive (value : Option Int32) : Option UInt64 :=
  (value.filter (0 < ·)).map fun v => v.toInt64.toUInt64

/-- The output of a task. `validateStrategy` requires the port of a ZMQ output.
Source: `newTaskConfig`, its switch -/
def newOutput (host : Host) (daemonUUID : String) (strategy : StrategyEntry) (args : StartupArgs)
    (item : TaskItem) : Except String OutputConfig :=
  let rateLimitMbps := positive strategy.forwardRateLimit
  let slice := positive strategy.sliceLen
  match strategy.packetChannelType with
  | .vxlan =>
    .ok { type := "vxlan", rateLimitMbps, slice, vxlan := some (vxlanOutput strategy args item) }
  | .gre =>
    .ok { type := "gre", rateLimitMbps, slice,
          gre := some ⟨strategy.address, serviceTag strategy, args.bindDevice, args.pmtudisc⟩ }
  | .zmq =>
    .ok { type := "zmq", rateLimitMbps, slice,
          zmq := some ⟨strategy.address, strategy.port.getD 0, args.zmqHwm, serviceTag strategy,
            daemonUUID, strategy.zmqHeartbeatMs⟩ }
  | .file =>
    match strategy.dumpDir with
    | none => .error "missing dumpDir"
    | some dumpDir =>
      let fileRoot := joinPath (dumpDir :: item.dumpSubDirs)
      match host.mkdirAll fileRoot with
      | some err => .error ("create dump dir failed: " ++ fileRoot ++ ": " ++ err)
      | none =>
        .ok { type := "rotating_file", rateLimitMbps, slice,
              rotatingFile := some ⟨fileRoot, strategy.dumpInterval⟩ }
  | .other name => .error ("packet channel type not supported: " ++ name)

/-- Capturing what the worker itself sends out is allowed only when it goes out elsewhere.
Source: `newTaskConfig`, its `allowNoFilter` -/
def allowNoFilter (strategy : StrategyEntry) (args : StartupArgs) (item : TaskItem) : Bool :=
  if item.typ ≠ .interface then true
  else if strategy.packetChannelType ≠ .gre ∧ strategy.packetChannelType ≠ .vxlan then false
  else match args.bindDevice with
    | none => false
    | some device => device ≠ item.nicName

/-- Source: `newTaskConfig`, its check of `NoFilter` -/
def checkNoFilter (strategy : StrategyEntry) (args : StartupArgs) (item : TaskItem) :
    Except String Unit :=
  if args.noFilter = some true && !allowNoFilter strategy args item then
    .error "nofilter only allowed when bind_device is set and different from the snoop interface"
  else .ok ()

/-- Source: `newTaskConfig`, its `ReqPattern` -/
def reqPatternConfig (strategy : StrategyEntry) : Option ReqPatternConfig :=
  match strategy.reqPatternType with
  | some .auto => some ⟨"auto", none⟩
  | some .custom => some ⟨"custom", some ⟨strategy.reqPattern.getD ""⟩⟩
  | _ => none

/-- Source: `workerTaskBuilder` -/
structure WorkerTaskBuilder where
  host : Host
  daemonUUID : String
  activeInstances : List String
  buffSize : UInt64
  warnings : List String := []
  tasks : List TaskConfig := []

namespace WorkerTaskBuilder

/-- The task of an item with this output.
Source: `newTaskConfig`, the task it fills in -/
def taskOf (b : WorkerTaskBuilder) (strategy : StrategyEntry) (args : StartupArgs) (item : TaskItem)
    (output : OutputConfig) : TaskConfig where
  fingerprint := none
  reqPattern := reqPatternConfig strategy
  capturer := ⟨"libpcap", some {
    interface := item.nicName
    snaplen := args.snaplen
    netns := if item.netns = "" then none else some item.netns
    bpf := strategy.bpf
    bufferSizeMb := some b.buffSize
    timeoutMs := args.timeout
    notFilterOutputHosts := args.noFilter }⟩
  outputs := [output]

def newTaskConfig (pk : Packages) (b : WorkerTaskBuilder) (strategy : StrategyEntry)
    (item : TaskItem) : Except String TaskConfig := do
  let args ← strategyArgs pk strategy
  validateStrategy strategy args
  checkNoFilter strategy args item
  let output ← newOutput b.host b.daemonUUID strategy args item
  return b.taskOf strategy args item output

/-- One item: its task, or the warning of what is wrong with it.
Source: the end of `addContainerId`, `addInterfaceName` and `addInstanceName` -/
def addItem (pk : Packages) (b : WorkerTaskBuilder) (strategy : StrategyEntry) (item : TaskItem) :
    WorkerTaskBuilder :=
  match b.newTaskConfig pk strategy item with
  | .error err => { b with warnings := b.warnings ++ [err] }
  | .ok task => { b with tasks := b.tasks ++ [task] }

def addInterfaceName (pk : Packages) (strategy : StrategyEntry) (b : WorkerTaskBuilder)
    (interfaceName : String × ℕ) : WorkerTaskBuilder :=
  b.addItem pk strategy {
    typ := .interface
    nicName := interfaceName.1
    obsIdx := interfaceName.2
    dumpSubDirs := [interfaceName.1] }

def addContainerId (pk : Packages) (strategy : StrategyEntry) (hostPid : ℤ) (b : WorkerTaskBuilder)
    (nic : String × ℕ) : WorkerTaskBuilder :=
  b.addItem pk strategy {
    typ := .container
    nicName := nic.1
    netns := "/proc/" ++ toString hostPid ++ "/ns/net"
    obsIdx := nic.2
    dumpSubDirs := [toString hostPid, nic.1] }

/-- The containers of a strategy; `idx` numbers their interfaces, also those of a container that is
not found.
Source: `addContainerIds` -/
def addContainerIds (pk : Packages) (strategy : StrategyEntry) :
    List String → ℕ → WorkerTaskBuilder → WorkerTaskBuilder
  | [], _, b => b
  | cId :: rest, idx, b =>
    let (containerId, nics) := decodeContainerId cId
    if containerId = "" then
      addContainerIds pk strategy rest idx
        { b with warnings := b.warnings ++ ["invalid container id: " ++ cId] }
    else
      match b.host.getContainerHostPid containerId with
      | .error err =>
        addContainerIds pk strategy rest (idx + nics.length)
          { b with warnings := b.warnings ++
            ["get container(" ++ containerId ++ ") host process id failed: " ++ err] }
      | .ok hostPid =>
        addContainerIds pk strategy rest (idx + nics.length)
          ((nics.zipIdx idx).foldl (addContainerId pk strategy hostPid) b)

def addInstanceName (pk : Packages) (strategy : StrategyEntry) (b : WorkerTaskBuilder)
    (instanceName : String × ℕ) : WorkerTaskBuilder :=
  if !b.activeInstances.contains instanceName.1 then
    { b with warnings := b.warnings ++ ["instance name not found: " ++ instanceName.1] }
  else
    match b.host.getKvmInstanceNics instanceName.1 with
    | .error err => { b with warnings := b.warnings ++ [err] }
    | .ok [] =>
      { b with warnings := b.warnings ++ ["instance " ++ instanceName.1 ++ " has no interfaces"] }
    | .ok (nic :: _) =>
      b.addItem pk strategy {
        typ := .kvmInstance
        nicName := nic
        obsIdx := instanceName.2
        dumpSubDirs := [nic] }

/-- One strategy: first checked as a whole on an interface of its own, then item by item.
Source: `addStrategy` -/
def addStrategy (pk : Packages) (b : WorkerTaskBuilder) (strategy : StrategyEntry) :
    WorkerTaskBuilder :=
  match b.newTaskConfig pk strategy { typ := .interface, nicName := "eth0", obsIdx := 0 } with
  | .error err => { b with warnings := b.warnings ++ [err] }
  | .ok _ =>
    if 0 < strategy.containerIds.length then
      addContainerIds pk strategy strategy.containerIds 0 b
    else if 0 < strategy.interfaceNames.length then
      strategy.interfaceNames.zipIdx.foldl (addInterfaceName pk strategy) b
    else strategy.instanceNames.zipIdx.foldl (addInstanceName pk strategy) b

/-- The fingerprint of a task with a sequence number, or without one.
Source: `build` -/
def candidate (pk : Packages) (labels : Labels) (seq : Option ℕ) : String :=
  match seq with
  | none => pk.hash labels
  | some seq => pk.hash (labels.insert (utf8 "_seq") (utf8 (toString seq)))

/-- The first fingerprint that is not taken: without a number, then with 1, 2 and so on. The loop of
the source has no bound; `none` is one that has tried more candidates than are taken, which needs
two numbers with one hash. Source: `build`, its inner loop -/
def freshFingerprint (hash : Option ℕ → String) (taken : List String) : Option String :=
  ((none :: (List.range taken.length).map fun n => some (n + 1)).map hash).find? (· ∉ taken)

/-- Source: `build`, its outer loop -/
def assignFingerprints (pk : Packages) : List String → List TaskConfig → Option (List TaskConfig)
  | _, [] => some []
  | taken, task :: rest => do
    let fingerprint ← freshFingerprint (candidate pk task.fingerPrintLables) taken
    let rest ← assignFingerprints pk (fingerprint :: taken) rest
    return { task with fingerprint := some fingerprint } :: rest

def build (pk : Packages) (b : WorkerTaskBuilder) : Option (List TaskConfig × List String) :=
  (assignFingerprints pk [] b.tasks).map fun tasks => (tasks, b.warnings)

end WorkerTaskBuilder

end CloudProbe.Daemon
