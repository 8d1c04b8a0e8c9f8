import Mathlib.Algebra.Order.Field.Rat
import Mathlib.Tactic.Common

/-!
# Strategies and worker configurations

The two data formats the daemon stands between: the strategies it gets from CPM and the
configuration file it writes for the worker. Optional fields are the source's pointers, integers
have the source's widths.

Strategies are in `cpm/models.go`, worker configurations in `worker/config.go`.
-/

namespace CloudProbe.Daemon

/-! ## What CPM delivers -/

/-- Source: `PacketChannelType_*` -/
inductive PacketChannelType where
  | gre
  | zmq
  | vxlan
  | file
  | other (name : String)
deriving DecidableEq

/-- Source: `ReqPatternType_*` -/
inductive ReqPatternType where
  | auto
  | custom
  | other (name : String)
deriving DecidableEq

/-- Source: `StrategyEntry` -/
structure StrategyEntry where
  interfaceNames : List String := []
  instanceNames : List String := []
  containerIds : List String := []
  bpf : Option String := none
  sliceLen : Option Int32 := none
  capTime : Option Int32 := none
  forwardRateLimit : Option Int32 := none
  hasServiceTag : Bool := false
  serviceTag : Option Int32 := none
  hasPacketSplit : Bool := false
  packetSplitBytes : Option Int32 := none
  recalculateChecksum : Bool := false
  reqPattern : Option String := none
  reqPatternType : Option ReqPatternType := none
  apiVersion : Option String := none
  startup : Option String := none
  packetChannelType : PacketChannelType
  address : String := ""
  port : Option Int32 := none
  dumpDir : Option String := none
  dumpInterval : Option Int32 := none
  hasObservationTag : Bool := false
  observationDomainIds : List UInt32 := []
  observationPointIds : List UInt8 := []
  hasExtensionFlag : Bool := false
  extensionFlag : Option Int8 := none
  zmqHeartbeatMs : Option Int32 := none
deriving DecidableEq

/-- A delivered strategy. The CPU limit is a finite float, so a rational.
Source: `SyncStrategyResponse` -/
structure SyncStrategyResponse where
  daemonId : ℤ
  version : Int32
  cpuLimit : Option ℚ := none
  memLimit : Option Int64 := none
  strategy : List StrategyEntry
  memFuseEnabled : Bool := false
  memFused : Bool := false
deriving DecidableEq

namespace SyncStrategyResponse

/-- The memory limit delivered by CPM, or the default when CPM delivers none.
Source: `EffectiveMemLimitMb` -/
def effectiveMemLimitMb (r : SyncStrategyResponse) (defaultMb : UInt64) : UInt64 :=
  match r.memLimit with
  | some limit => if 0 < limit then limit.toUInt64 else defaultMb
  | none => defaultMb

/-- Source: `HasInstances` -/
def hasInstances (r : SyncStrategyResponse) : Bool :=
  r.strategy.any fun strategy => 0 < strategy.instanceNames.length

end SyncStrategyResponse

/-- The items one strategy asks for: of its three lists the first that is not empty counts.
Source: `NumItems`, the body of its loop -/
def StrategyEntry.numItems (strategy : StrategyEntry) (activeInstances : List String) : ℕ :=
  if 0 < strategy.containerIds.length then strategy.containerIds.length
  else if 0 < strategy.interfaceNames.length then strategy.interfaceNames.length
  else strategy.instanceNames.countP fun instanceName => activeInstances.contains instanceName

/-- Source: `NumItems` -/
def SyncStrategyResponse.numItems (r : SyncStrategyResponse) (activeInstances : List String) : ℕ :=
  (r.strategy.map fun strategy => strategy.numItems activeInstances).sum

/-! ## What the worker is given

The types of an output, a capturer and a request pattern are texts, as in the file; a task may carry
the configuration of several of them. -/

structure CustomReqPatternConfig where
  pattern : String
deriving DecidableEq

structure ReqPatternConfig where
  type : String
  custom : Option CustomReqPatternConfig
deriving DecidableEq

structure LibpcapConfig where
  interface : String
  snaplen : Option ℤ
  netns : Option String
  bpf : Option String
  bufferSizeMb : Option UInt64
  timeoutMs : Option ℤ
  notFilterOutputHosts : Option Bool
deriving DecidableEq

structure CapturerConfig where
  type : String
  libpcap : Option LibpcapConfig
deriving DecidableEq

structure PacketSplitConfig where
  maxPayloadSize : Option Int32
  recalculateChecksum : Option Bool
deriving DecidableEq

structure VxlanOutputConfig where
  host : String
  port : Option Int32
  captureTime : Option Bool
  vni1 : Option UInt32
  vni2 : Option UInt32
  bindDevice : Option String
  pmtudisc : Option String
  split : Option PacketSplitConfig
deriving DecidableEq

structure GreOutputConfig where
  host : String
  serviceTag : Option UInt32
  bindDevice : Option String
  pmtudisc : Option String
deriving DecidableEq

structure ZmqOutputConfig where
  host : String
  port : Int32
  hwm : Option ℤ
  serviceTag : Option UInt32
  uuid : String
  heartbeatMs : Option Int32
deriving DecidableEq

structure FileOutputConfig where
  name : String
deriving DecidableEq

structure RotatingFileOutputConfig where
  fileRoot : String
  maxFileInterval : Option Int32
deriving DecidableEq

structure OutputConfig where
  type : String
  rateLimitMbps : Option UInt64
  slice : Option UInt64
  vxlan : Option VxlanOutputConfig := none
  gre : Option GreOutputConfig := none
  zmq : Option ZmqOutputConfig := none
  file : Option FileOutputConfig := none
  rotatingFile : Option RotatingFileOutputConfig := none
deriving DecidableEq

structure TaskConfig where
  fingerprint : Option String
  reqPattern : Option ReqPatternConfig
  capturer : CapturerConfig
  outputs : List OutputConfig
deriving DecidableEq

/-- Source: `EXECUTION_MODEL_*` -/
inductive ExecutionModel where
  | rtc
  | pipeline
  | other (name : String)
deriving DecidableEq

/-- Source: `ControlConfig` -/
inductive ControlConfig where
  | unix (path : Option String)
  | other (name : String)
deriving DecidableEq

/-- Source: `Config` -/
structure WorkerFile where
  cpuAffinity : Option String
  logLevel : String
  executionModel : ExecutionModel
  pipelineBufferSizeMb : Option UInt64
  control : ControlConfig
  tasks : List TaskConfig
deriving DecidableEq

end CloudProbe.Daemon
