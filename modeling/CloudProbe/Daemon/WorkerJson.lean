import CloudProbe.Daemon.WorkerMgr
import CloudProbe.Worker.ParseConfig

/-!
# The configuration file as JSON

What the daemon writes, as the tree that the JSON library of the worker makes of it. A pointer that
is nil is left out, and a number is read as a double, exact up to 53 bits (`roundDouble`).

Sources without a file are in `worker/config.go`.
-/

open CloudProbe.Worker (Json)

namespace CloudProbe.Daemon

/-! ## Numbers -/

/-- The magnitude rounded to 53 bits, to the nearest, ties to the even one. -/
def roundMagnitude (m : ℕ) : ℕ :=
  let unit := 2 ^ (Nat.log2 m - 52)
  let quotient := m / unit
  let remainder := m % unit
  let up := unit < 2 * remainder ∨ 2 * remainder = unit ∧ quotient % 2 = 1
  (if up then quotient + 1 else quotient) * unit

/-- An integer as a double.
Source: `strtod` -/
def roundDouble (v : ℤ) : ℤ :=
  if v.natAbs < 2 ^ 53 then v else v.sign * (roundMagnitude v.natAbs : ℤ)

theorem roundDouble_of_lt {v : ℤ} (h : v.natAbs < 2 ^ 53) : roundDouble v = v := if_pos h

theorem le_roundMagnitude {m : ℕ} (h : 2 ^ 53 ≤ m) : 2 ^ 53 ≤ roundMagnitude m := by
  have hne : m ≠ 0 := by
    rintro rfl
    exact absurd h (by decide)
  have hlog : 53 ≤ Nat.log2 m := (Nat.le_log2 hne).mpr h
  have hsplit : 2 ^ Nat.log2 m = 2 ^ 52 * 2 ^ (Nat.log2 m - 52) := by
    rw [← pow_add]
    congr 1
    omega
  have hquotient : 2 ^ 52 ≤ m / 2 ^ (Nat.log2 m - 52) := by
    apply (Nat.le_div_iff_mul_le (by positivity)).mpr
    rw [← hsplit]
    exact Nat.log2_self_le hne
  have hunit : 2 ≤ 2 ^ (Nat.log2 m - 52) := by
    calc 2 = 2 ^ 1 := rfl
      _ ≤ _ := Nat.pow_le_pow_right (by decide) (by omega)
  have hbase : 2 ^ 53 ≤ m / 2 ^ (Nat.log2 m - 52) * 2 ^ (Nat.log2 m - 52) := by
    calc 2 ^ 53 = 2 ^ 52 * 2 := rfl
      _ ≤ _ := Nat.mul_le_mul hquotient hunit
  unfold roundMagnitude
  dsimp only
  split_ifs with hup
  · exact hbase.trans (Nat.mul_le_mul_right _ (Nat.le_succ _))
  · exact hbase

theorem le_roundDouble {v : ℤ} (h : 2 ^ 53 ≤ v) : 2 ^ 53 ≤ roundDouble v := by
  have hmagnitude : 2 ^ 53 ≤ v.natAbs := by omega
  rw [roundDouble, if_neg (by omega), Int.sign_eq_one_of_pos (by omega), one_mul]
  exact_mod_cast le_roundMagnitude hmagnitude

theorem le_roundDouble_iff {v bound : ℤ} (hv : 0 ≤ v) (hbound : bound < 2 ^ 53) :
    roundDouble v ≤ bound ↔ v ≤ bound := by
  by_cases hsmall : v < 2 ^ 53
  · rw [roundDouble_of_lt (by omega)]
  · have hlarge := le_roundDouble (v := v) (by omega)
    omega

theorem roundDouble_nonneg {v : ℤ} (h : 0 ≤ v) : 0 ≤ roundDouble v := by
  by_cases hsmall : v < 2 ^ 53
  · rwa [roundDouble_of_lt (by omega)]
  · have hlarge := le_roundDouble (v := v) (by omega)
    omega

def jsonInt (v : ℤ) : Json := .number (roundDouble v)

/-! ## Files -/

/-- The fields that are there.
Source: the tag `omitempty` of a pointer -/
def jsonFields (fields : List (String × Option Json)) : Json :=
  .object (fields.filterMap fun field => field.2.map fun value => (field.1, value))

/-- Source: `ReqPatternConfig`, `CustomReqPatternConfig`; an empty pattern is
left out -/
def ReqPatternConfig.toJson (c : ReqPatternConfig) : Json := jsonFields
  [("type", some (.string c.type)),
   ("custom", c.custom.map fun custom => jsonFields
      [("pattern", if custom.pattern = "" then none else some (.string custom.pattern))])]

def LibpcapConfig.toJson (c : LibpcapConfig) : Json := jsonFields
  [("interface", some (.string c.interface)),
   ("snaplen", c.snaplen.map jsonInt),
   ("netns", c.netns.map .string),
   ("bpf", c.bpf.map .string),
   ("buffer_size_mb", c.bufferSizeMb.map fun size => jsonInt size.toNat),
   ("timeout_ms", c.timeoutMs.map jsonInt),
   ("not_filter_output_hosts", c.notFilterOutputHosts.map .bool)]

def CapturerConfig.toJson (c : CapturerConfig) : Json := jsonFields
  [("type", some (.string c.type)), ("libpcap", c.libpcap.map LibpcapConfig.toJson)]

def PacketSplitConfig.toJson (c : PacketSplitConfig) : Json := jsonFields
  [("max_payload_size", c.maxPayloadSize.map fun size => jsonInt size.toInt),
   ("recalculate_checksum", c.recalculateChecksum.map .bool)]

def VxlanOutputConfig.toJson (c : VxlanOutputConfig) : Json := jsonFields
  [("host", some (.string c.host)),
   ("port", c.port.map fun port => jsonInt port.toInt),
   ("capture_time", c.captureTime.map .bool),
   ("vni1", c.vni1.map fun vni => jsonInt vni.toNat),
   ("vni2", c.vni2.map fun vni => jsonInt vni.toNat),
   ("bind_device", c.bindDevice.map .string),
   ("pmtudisc", c.pmtudisc.map .string),
   ("split", c.split.map PacketSplitConfig.toJson)]

def GreOutputConfig.toJson (c : GreOutputConfig) : Json := jsonFields
  [("host", some (.string c.host)),
   ("service_tag", c.serviceTag.map fun tag => jsonInt tag.toNat),
   ("bind_device", c.bindDevice.map .string),
   ("pmtudisc", c.pmtudisc.map .string)]

def ZmqOutputConfig.toJson (c : ZmqOutputConfig) : Json := jsonFields
  [("host", some (.string c.host)),
   ("port", some (jsonInt c.port.toInt)),
   ("hwm", c.hwm.map jsonInt),
   ("service_tag", c.serviceTag.map fun tag => jsonInt tag.toNat),
   ("uuid", some (.string c.uuid)),
   ("heartbeat_ms", c.heartbeatMs.map fun ms => jsonInt ms.toInt)]

def FileOutputConfig.toJson (c : FileOutputConfig) : Json := jsonFields
  [("name", some (.string c.name))]

def RotatingFileOutputConfig.toJson (c : RotatingFileOutputConfig) : Json := jsonFields
  [("file_root", some (.string c.fileRoot)),
   ("max_file_interval", c.maxFileInterval.map fun interval => jsonInt interval.toInt)]

def OutputConfig.toJson (c : OutputConfig) : Json := jsonFields
  [("type", some (.string c.type)),
   ("rate_limit_mbps", c.rateLimitMbps.map fun rate => jsonInt rate.toNat),
   ("slice", c.slice.map fun slice => jsonInt slice.toNat),
   ("vxlan", c.vxlan.map VxlanOutputConfig.toJson),
   ("gre", c.gre.map GreOutputConfig.toJson),
   ("zmq", c.zmq.map ZmqOutputConfig.toJson),
   ("file", c.file.map FileOutputConfig.toJson),
   ("rotating_file", c.rotatingFile.map RotatingFileOutputConfig.toJson)]

def TaskConfig.toJson (c : TaskConfig) : Json := jsonFields
  [("fingerprint", c.fingerprint.map .string),
   ("req_pattern", c.reqPattern.map ReqPatternConfig.toJson),
   ("capturer", some c.capturer.toJson),
   ("outputs", some (.array (c.outputs.map OutputConfig.toJson)))]

/-- Source: `EXECUTION_MODEL_*` -/
def ExecutionModel.name : ExecutionModel → String
  | .rtc => "rtc"
  | .pipeline => "pipeline"
  | .other name => name

def ControlConfig.toJson : ControlConfig → Json
  | .unix path => jsonFields
      [("type", some (.string "unix")),
       ("unix", path.map fun p => jsonFields [("path", some (.string p))])]
  | .other name => jsonFields [("type", some (.string name))]

def WorkerFile.toJson (file : WorkerFile) : Json := jsonFields
  [("cpu_affinity", file.cpuAffinity.map .string),
   ("log_level", some (.string file.logLevel)),
   ("execution_model", some (.string file.executionModel.name)),
   ("pipeline", file.pipelineBufferSizeMb.map fun size =>
      jsonFields [("buffer_size_mb", some (jsonInt size.toNat))]),
   ("control", some file.control.toJson),
   ("tasks", some (.array (file.tasks.map TaskConfig.toJson)))]

end CloudProbe.Daemon
