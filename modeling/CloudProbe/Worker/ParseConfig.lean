import Mathlib.Algebra.Order.Floor.Ring
import Mathlib.Data.Rat.Floor
import Mathlib.Tactic.Common

/-!
# Parsing the configuration

From the JSON tree that the JSON library gives to the values the worker keeps. One bad value makes
the parser refuse the whole file. Numbers are the values of finite doubles, and texts end at their
first zero byte. Each kind of field is one definition, with the name that its errors carry. Failing
allocations are left out.

Types are in `config.h`, other sources without a file in `config.c`.
-/

namespace CloudProbe.Worker

/-! ## Trees -/

/-- Source: `cJSON/cJSON.h` `cJSON`, by its types; a number is its `valuedouble` -/
inductive Json where
  | null
  | bool (value : Bool)
  | number (value : ℚ)
  | string (value : String)
  | array (items : List Json)
  | object (fields : List (String × Json))

/-- The first field of this name; only objects have fields.
Source: `cJSON/cJSON.c` `cJSON_GetObjectItemCaseSensitive` -/
def Json.get (json : Json) (name : String) : Option Json :=
  match json with
  | .object fields => fields.lookup name
  | _ => none

/-- A text as the C code sees it: up to the first zero byte.
Source: `cJSON/cJSON.h` `valuestring` -/
def cString (value : String) : String :=
  String.ofList (value.toList.takeWhile fun c => c.toNat != 0)

/-- An error, with the values its text is made of; `wrapped` puts a text before another error.
Source: `cjson_utils.c` `cjson_set_parse_error`, `cjson_wrap_parse_error` -/
inductive ParseError where
  | text (message : String)
  | notInRange (name : String) (value : ℚ) (min max : ℤ)
  | notInteger (name : String) (value : ℚ)
  | tooSmall (name : String) (value : ℤ) (bound : String)
  | wrapped (message : String) (cause : ParseError)
deriving DecidableEq

/-- Source: `cjson_utils.c` `cjson_wrap_parse_error` -/
def wrapError {α : Type} (message : String) (result : Except ParseError α) : Except ParseError α :=
  result.mapError (.wrapped message)

/-! ## Fields -/

/-- Source: the pattern `if (!cJSON_IsString(item))` -/
def requiredString (item : Option Json) (message : String) : Except ParseError String :=
  match item with
  | some (.string value) => .ok (cString value)
  | _ => .error (.text message)

/-- Source: the pattern `if (!item) ... else if (cJSON_IsString(item))` -/
def optionalString (item : Option Json) (default message : String) : Except ParseError String :=
  match item with
  | none => .ok default
  | some (.string value) => .ok (cString value)
  | some _ => .error (.text message)

/-- Source: the pattern `if (!item) ... else if (cJSON_IsBool(item))` -/
def optionalBool (item : Option Json) (message : String) : Except ParseError Bool :=
  match item with
  | none => .ok false
  | some (.bool value) => .ok value
  | some _ => .error (.text message)

/-- The bounds of the source are exact as doubles.
Source: `cjson_utils.c` `cjson_get_int64_range` -/
def getInt64Range (item : Json) (name : String) (min max : ℤ) : Except ParseError ℤ :=
  match item with
  | .number value =>
    if value < min ∨ (max : ℚ) < value ∨ (⌊value⌋ : ℚ) ≠ value then
      .error (.notInRange name value min max)
    else .ok ⌊value⌋
  | _ => .error (.text ("invalid " ++ name))

/-- Source: `cjson_utils.c` `cjson_get_integer` -/
def getInteger (item : Json) (name : String) : Except ParseError ℤ :=
  match item with
  | .number value =>
    if (⌊value⌋ : ℚ) ≠ value then .error (.notInteger name value) else .ok ⌊value⌋
  | _ => .error (.text ("invalid " ++ name))

def optionalRange (item : Option Json) (name : String) (min max default : ℤ) :
    Except ParseError ℤ :=
  match item with
  | none => .ok default
  | some json => getInt64Range json name min max

/-- Source: `limits.h` `INT_MAX` -/
def intMax : ℤ := 2147483647

/-- Source: `stdint.h` `UINT32_MAX` -/
def uint32Max : ℤ := 4294967295

/-- An integer that is not negative, cut to the range of an `int`, or its default.
Source: the pattern `value > INT_MAX ? INT_MAX : (int)value` -/
def optionalCut (item : Option Json) (name : String) (default : ℤ) : Except ParseError ℤ :=
  match item with
  | none => .ok default
  | some json => do
    let value ← getInteger json name
    if value < 0 then throw (.tooSmall name value "must be >= 0")
    return if intMax < value then intMax else value

def defaultSnaplen : ℤ := 2048

def maxSnaplen : ℤ := 262144

def maxLibpcapBufferSizeMb : ℤ := intMax / 1024 / 1024

def parseSnaplen (obj : Json) (name : String) (nonPositiveMeansMax : Bool) : Except ParseError ℤ :=
  match obj.get "snaplen" with
  | none => .ok defaultSnaplen
  | some json => do
    let value ← getInteger json name
    if value ≤ 0 && !nonPositiveMeansMax then throw (.tooSmall name value "must be > 0")
    return if value ≤ 0 ∨ maxSnaplen < value then maxSnaplen else value

/-- Source: `parse_capturer_config`, `buffer_size_mb` -/
def parseLibpcapBufferSize (item : Option Json) : Except ParseError ℤ :=
  match item with
  | none => .ok 256
  | some json => do
    let value ← getInteger json "libpcap.buffer_size_mb"
    if value ≤ 0 then throw (.tooSmall "libpcap.buffer_size_mb" value "must be > 0")
    return if maxLibpcapBufferSizeMb < value then maxLibpcapBufferSizeMb else value

/-- Source: `netinet/in.h` `IP_PMTUDISC_*` -/
inductive Pmtudisc where
  | unset
  | doIt
  | dont
  | want
deriving DecidableEq

/-- Source: `parse_output_config`, `pmtudisc` of a VXLAN and of a GRE output -/
def parsePmtudisc (item : Option Json) (name : String) : Except ParseError Pmtudisc :=
  match item with
  | none => .ok .unset
  | some (.string value) =>
    if cString value = "do" then .ok .doIt
    else if cString value = "dont" then .ok .dont
    else if cString value = "want" then .ok .want
    else .error (.text ("invalid " ++ name ++ " " ++ cString value))
  | some _ => .error (.text ("invalid " ++ name))

/-! ## Capturers -/

/-- Source: `CapturerConfig` -/
inductive ParsedCapturer where
  | libpcap (interface netns : String) (snaplen : ℤ) (bpfFilter : String)
      (bufferSizeMb timeoutMs : ℤ) (notFilterOutputHosts : Bool)
  | pcapFile (fileName bpfFilter : String)
  | dpdkPdump (interface : String) (snaplen : ℤ) (bpfFilter : String) (ringSize : ℤ)
deriving DecidableEq

/-- Source: `parse_capturer_config`, of type `libpcap` -/
def parseLibpcap (obj : Json) : Except ParseError ParsedCapturer := do
  let interface ← requiredString (obj.get "interface") "missing or invalid libpcap.interface"
  let netns ← optionalString (obj.get "netns") "" "invalid netns"
  let snaplen ← parseSnaplen obj "libpcap.snaplen" true
  let bpfFilter ← optionalString (obj.get "bpf") "" "invalid libpcap.bpf"
  let bufferSizeMb ← parseLibpcapBufferSize (obj.get "buffer_size_mb")
  let timeoutMs ← optionalCut (obj.get "timeout_ms") "libpcap.timeout_ms" 0
  let notFilterOutputHosts ←
    optionalBool (obj.get "not_filter_output_hosts") "invalid libpcap.not_filter_output_hosts"
  return .libpcap interface netns snaplen bpfFilter bufferSizeMb timeoutMs notFilterOutputHosts

/-- Source: `parse_capturer_config`, of type `pcap_file` -/
def parsePcapFile (obj : Json) : Except ParseError ParsedCapturer := do
  let fileName ← requiredString (obj.get "file_name") "missing or invalid pcap_file.file_name"
  let bpfFilter ← optionalString (obj.get "bpf") "" "invalid pcap_file.bpf"
  return .pcapFile fileName bpfFilter

/-- Source: `parse_capturer_config`, of type `dpdk_pdump` -/
def parseDpdkPdump (obj : Json) : Except ParseError ParsedCapturer := do
  let interface ← requiredString (obj.get "interface") "missing or invalid dpdk_pdump.interface"
  let snaplen ← parseSnaplen obj "dpdk_pdump.snaplen" false
  let bpfFilter ← optionalString (obj.get "bpf") "" "invalid dpdkdump.bpf"
  let ringSize ← optionalRange (obj.get "ring_size") "dpdk_pdump.ring_size" 2 1073741824 2048
  return .dpdkPdump interface snaplen bpfFilter ringSize

/-- The object of this name, whatever its type.
Source: the pattern `if (!obj)` -/
def requiredObject (json : Json) (name : String) : Except ParseError Json :=
  match json.get name with
  | none => .error (.text ("missing " ++ name ++ " config"))
  | some obj => .ok obj

def parseCapturerConfig (engine : Json) : Except ParseError ParsedCapturer := do
  let type ← requiredString (engine.get "type") "missing or invalid capturer type"
  if type = "libpcap" then requiredObject engine "libpcap" >>= parseLibpcap
  else if type = "pcap_file" then requiredObject engine "pcap_file" >>= parsePcapFile
  else if type = "dpdk_pdump" then requiredObject engine "dpdk_pdump" >>= parseDpdkPdump
  else throw (.text ("unknown capturer type: " ++ type))

/-! ## Outputs -/

/-- Source: `SplitConfig` -/
structure ParsedSplit where
  maxPayloadSize : ℤ
  recalculateChecksum : Bool
deriving DecidableEq

/-- Without the object the checksum setting is that of a zeroed record.
Source: `parse_split_config` -/
def parseSplitConfig (item : Option Json) : Except ParseError ParsedSplit :=
  match item with
  | none => .ok ⟨0, false⟩
  | some obj => do
    let maxPayloadSize ←
      optionalRange (obj.get "max_payload_size") "vxlan.split.max_payload_size" 0 65535 0
    let recalculateChecksum ← optionalBool (obj.get "recalculate_checksum")
      "invalid recalculate_checksum: must be boolean"
    return ⟨maxPayloadSize, recalculateChecksum⟩

/-- The version of the tag and its value.
Source: `parse_output_config`, `vni1` and `vni2` -/
def parseVni (vni1 vni2 : Option Json) : Except ParseError (ℕ × ℤ) :=
  match vni1, vni2 with
  | some _, some _ => .error (.text "vxlan.vni1 and vxlan.vni2 are mutually exclusive")
  | some json, none => do
    let value ← getInt64Range json "vxlan.vni1" 0 uint32Max
    return (1, value % 16777216)
  | none, some json => do
    let value ← getInt64Range json "vxlan.vni2" 0 uint32Max
    return (2, value)
  | none, none => .error (.text "require vxlan.vni1 or vxlan.vni2")

/-- Source: `OutputConfig`, its union -/
inductive ParsedOutputKind where
  | vxlan (host : String) (port : ℤ) (captureTime : Bool) (vni : ℕ × ℤ) (bindDevice : String)
      (pmtudisc : Pmtudisc) (split : ParsedSplit)
  | gre (host : String) (serviceTag : ℤ) (bindDevice : String) (pmtudisc : Pmtudisc)
  | zmq (host : String) (port hwm serviceTag : ℤ) (uuid : String) (heartbeatMs : ℤ)
  | file (name : String)
  | rotatingFile (fileRoot : String) (maxFileInterval : ℤ)
  | null
deriving DecidableEq

/-- Source: `OutputConfig` -/
structure ParsedOutput where
  rateLimitMbps : ℤ
  slice : ℤ
  kind : ParsedOutputKind
deriving DecidableEq

/-- Source: `parse_output_config`, of type `vxlan` -/
def parseVxlan (obj : Json) : Except ParseError ParsedOutputKind := do
  let host ← requiredString (obj.get "host") "missing or invalid vxlan.host"
  let port ← optionalRange (obj.get "port") "vxlan.port" 1 65535 4789
  let captureTime ← optionalBool (obj.get "capture_time") "invalid vxlan.capture_time"
  let vni ← parseVni (obj.get "vni1") (obj.get "vni2")
  let bindDevice ← optionalString (obj.get "bind_device") "" "invalid vxlan.bind_device"
  let pmtudisc ← parsePmtudisc (obj.get "pmtudisc") "vxlan.pmtudisc"
  let split ← wrapError "parse vxlan.split error" (parseSplitConfig (obj.get "split"))
  return .vxlan host port captureTime vni bindDevice pmtudisc split

/-- Source: `parse_output_config`, of type `gre` -/
def parseGre (obj : Json) : Except ParseError ParsedOutputKind := do
  let host ← requiredString (obj.get "host") "missing or invalid gre.host"
  let serviceTag ← optionalRange (obj.get "service_tag") "gre.service_tag" 0 uint32Max 0x0fffffff
  let bindDevice ← optionalString (obj.get "bind_device") "" "invalid gre.bind_device"
  let pmtudisc ← parsePmtudisc (obj.get "pmtudisc") "gre.pmtudisc"
  return .gre host serviceTag bindDevice pmtudisc

/-- Source: `parse_output_config`, `port` of a ZMQ output -/
def parseZmqPort (item : Option Json) : Except ParseError ℤ :=
  match item with
  | none => .error (.text "missing zmq.port")
  | some json => getInt64Range json "zmq.port" 1 65535

/-- Source: `parse_output_config`, of type `zmq` -/
def parseZmq (obj : Json) : Except ParseError ParsedOutputKind := do
  let host ← requiredString (obj.get "host") "missing or invalid zmq.host"
  let port ← parseZmqPort (obj.get "port")
  let hwm ← optionalCut (obj.get "hwm") "zmq.hwm" 100
  let serviceTag ← optionalRange (obj.get "service_tag") "zmq.service_tag" 0 uint32Max uint32Max
  let uuid ← optionalString (obj.get "uuid") "" "invalid zmq.uuid"
  let heartbeatMs ← optionalRange (obj.get "heartbeat_ms") "zmq.heartbeat_ms" 0 60000 0
  return .zmq host port hwm serviceTag uuid heartbeatMs

/-- Source: `parse_output_config`, of type `file` -/
def parseFile (obj : Json) : Except ParseError ParsedOutputKind := do
  let name ← requiredString (obj.get "name") "missing or invalid file.name"
  return .file name

/-- Source: `parse_output_config`, of type `rotating_file` -/
def parseRotatingFile (obj : Json) : Except ParseError ParsedOutputKind := do
  let fileRoot ← requiredString (obj.get "file_root") "missing or invalid rotating_file.file_root"
  let maxFileInterval ←
    optionalCut (obj.get "max_file_interval") "rotating_file.max_file_interval" 60
  return .rotatingFile fileRoot maxFileInterval

/-- Source: `parse_output_config`, by type -/
def parseOutputKind (output : Json) (type : String) : Except ParseError ParsedOutputKind :=
  if type = "vxlan" then requiredObject output "vxlan" >>= parseVxlan
  else if type = "gre" then requiredObject output "gre" >>= parseGre
  else if type = "zmq" then requiredObject output "zmq" >>= parseZmq
  else if type = "file" then requiredObject output "file" >>= parseFile
  else if type = "rotating_file" then requiredObject output "rotating_file" >>= parseRotatingFile
  else if type = "null" then .ok .null
  else .error (.text ("unknown output type: " ++ type))

def parseOutputConfig (output : Json) : Except ParseError ParsedOutput := do
  let type ← requiredString (output.get "type") "missing or invalid output type"
  let rateLimitMbps ← optionalCut (output.get "rate_limit_mbps") "rate_limit_mbps" 0
  let slice ← optionalCut (output.get "slice") "slice" 0
  let kind ← parseOutputKind output type
  return ⟨rateLimitMbps, slice, kind⟩

/-! ## Tasks -/

/-- Source: `ReqPatternConfig` -/
inductive ParsedReqPattern where
  | none
  | auto
  | custom (pattern : String)
deriving DecidableEq

/-- An object of this name.
Source: the pattern `if (!cJSON_IsObject(item))` -/
def isObject : Option Json → Bool
  | some (.object _) => true
  | _ => false

def parseReqPatternConfig (json : Json) : Except ParseError ParsedReqPattern := do
  let type ← requiredString (json.get "type") "missing or invalid output type"
  if type = "auto" then return .auto
  else if type = "custom" then
    if !isObject (json.get "custom") then throw (.text "custom %d is not an object")
    let pattern ← optionalString ((json.get "custom").bind (Json.get · "pattern")) ""
      "invalid custom.pattern"
    return .custom pattern
  else throw (.text ("unknown req_pattern type: " ++ type))

/-- Source: `TaskConfig` -/
structure ParsedTask where
  fingerprint : Option String
  reqPattern : ParsedReqPattern
  capturer : ParsedCapturer
  outputs : List ParsedOutput
deriving DecidableEq

/-- An empty fingerprint is none.
Source: `parse_task_config`, `fingerprint` -/
def parseFingerprint (item : Option Json) : Except ParseError (Option String) :=
  match item with
  | none => .ok none
  | some (.string value) => .ok (if cString value = "" then none else some (cString value))
  | some _ => .error (.text "invalid fingerprint")

/-- Source: `parse_task_config`, `req_pattern` -/
def parseTaskReqPattern (item : Option Json) : Except ParseError ParsedReqPattern :=
  match item with
  | none => .ok .none
  | some (.object fields) =>
    wrapError "parse req_pattern error" (parseReqPatternConfig (.object fields))
  | some _ => .error (.text "invalid netns")

/-- Source: `parse_task_config`, its loop over the outputs -/
def parseOutputs (i : ℕ) : List Json → Except ParseError (List ParsedOutput)
  | [] => .ok []
  | json :: rest => do
    if !isObject (some json) then throw (.text ("output " ++ toString i ++ " is not an object"))
    let output ← wrapError "parse output error" (parseOutputConfig json)
    let outputs ← parseOutputs (i + 1) rest
    return output :: outputs

/-- The items of an array field.
Source: the pattern `if (!cJSON_IsArray(item))` -/
def requiredArray (item : Option Json) (message : String) : Except ParseError (List Json) :=
  match item with
  | some (.array items) => .ok items
  | _ => .error (.text message)

/-- Source: `parse_task_config`, `capturer` -/
def parseTaskCapturer (item : Option Json) : Except ParseError ParsedCapturer :=
  match item with
  | some (.object fields) => wrapError "parse capturer error" (parseCapturerConfig (.object fields))
  | _ => .error (.text "missing or invalid capturer config")

def parseTaskConfig (json : Json) : Except ParseError ParsedTask := do
  let fingerprint ← parseFingerprint (json.get "fingerprint")
  let reqPattern ← parseTaskReqPattern (json.get "req_pattern")
  let capturer ← parseTaskCapturer (json.get "capturer")
  let items ← requiredArray (json.get "outputs") "missing or invalid outputs config"
  let outputs ← parseOutputs 0 items
  return ⟨fingerprint, reqPattern, capturer, outputs⟩

/-- A fingerprint that an earlier task has is refused.
Source: `parse_tasks_json`, `check fingerprint` -/
def checkFingerprint (tasks : List ParsedTask) (task : ParsedTask) : Except ParseError Unit :=
  match task.fingerprint with
  | none => .ok ()
  | some fingerprint =>
    if tasks.any fun t => t.fingerprint = some fingerprint then
      .error (.text ("duplicate fingerprint '" ++ fingerprint ++ "'"))
    else .ok ()

/-- Source: `parse_tasks_json`, its loop; `tasks` are those read before -/
def parseTaskItems (tasks : List ParsedTask) : List Json → Except ParseError (List ParsedTask)
  | [] => .ok tasks
  | json :: rest => do
    if !isObject (some json) then
      throw (.text ("task " ++ toString tasks.length ++ " is not an object"))
    let task ← wrapError ("parse task " ++ toString tasks.length ++ " error")
      (parseTaskConfig json)
    checkFingerprint tasks task
    parseTaskItems (tasks ++ [task]) rest

def parseTasksJson (json : Json) : Except ParseError (List ParsedTask) := do
  let items ← requiredArray (json.get "tasks") "missing or invalid tasks array"
  parseTaskItems [] items

/-! ## The configuration -/

/-- Source: `log.h` `LOG_*` -/
inductive LogLevel where
  | debug
  | info
  | warn
  | error
deriving DecidableEq

/-- Texts that differ at most in the case of ASCII letters.
Source: `strings.h` `strcasecmp` -/
def sameIgnoringCase (s t : String) : Bool := s.toList.map Char.toLower = t.toList.map Char.toLower

/-- Source: `parse_config_json`, `log_level` -/
def parseLogLevel (item : Option Json) : Except ParseError LogLevel :=
  match item with
  | none => .ok .info
  | some (.string value) =>
    if sameIgnoringCase (cString value) "DEBUG" then .ok .debug
    else if sameIgnoringCase (cString value) "INFO" then .ok .info
    else if sameIgnoringCase (cString value) "WARN" then .ok .warn
    else if sameIgnoringCase (cString value) "ERROR" then .ok .error
    else .error (.text "invalid log_level")
  | some _ => .error (.text "invalid log_level")

/-- Whether the pipeline model is used.
Source: `parse_config_json`, `execution_model` -/
def parseExecutionModel (item : Option Json) : Except ParseError Bool :=
  match item with
  | none => .ok false
  | some (.string value) =>
    if cString value = "rtc" then .ok false
    else if cString value = "pipeline" then .ok true
    else .error (.text "invalid execution_model")
  | some _ => .error (.text "invalid execution_model")

/-- The largest buffer whose bytes fit a `size_t`.
Source: `parse_config_json`, `SIZE_MAX / (1024 * 1024)` -/
def maxPipelineBufferSizeMb : ℤ := 17592186044415

/-- Source: `parse_config_json`, `pipeline.buffer_size_mb` -/
def parsePipelineBuffer (item : Option Json) : Except ParseError ℤ :=
  match item with
  | none => .error (.text "missing pipeline.buffer_size_mb")
  | some json => getInt64Range json "pipeline.buffer_size_mb" 1 maxPipelineBufferSizeMb

/-- Source: `parse_config_json`, `pipeline` -/
def parsePipeline (pipeline : Bool) (item : Option Json) : Except ParseError ℤ :=
  if pipeline then
    match item with
    | none => .error (.text "missing pipeline config")
    | some (.object fields) => parsePipelineBuffer ((Json.object fields).get "buffer_size_mb")
    | some _ => .error (.text "invalid pipeline config")
  else .ok 0

/-- The path of the control socket.
Source: `parse_control_config` -/
def parseControlConfig (json : Json) : Except ParseError String := do
  let type ← requiredString (json.get "type") "missing or invalid control type"
  if type = "unix" then
    let unix ← requiredObject json "unix"
    requiredString (unix.get "path") "missing or invalid unix.path"
  else throw (.text ("unknown control type: " ++ type))

/-- Source: `parse_config_json`, `control` -/
def parseControl (item : Option Json) : Except ParseError (Option String) :=
  match item with
  | none => .ok none
  | some (.object fields) =>
    (wrapError "parse control error" (parseControlConfig (.object fields))).map some
  | some _ => .error (.text "invalid control")

/-- Source: `Config` -/
structure ParsedConfig where
  tasks : List ParsedTask
  logLevel : LogLevel
  cpuAffinity : String
  pipeline : Bool
  pipelineBufferSizeMb : ℤ
  controlPath : Option String
deriving DecidableEq

def parseConfigJson (json : Json) : Except ParseError ParsedConfig := do
  let tasks ← parseTasksJson json
  let logLevel ← parseLogLevel (json.get "log_level")
  let cpuAffinity ← optionalString (json.get "cpu_affinity") "" "invalid cpu_affinity"
  let pipeline ← parseExecutionModel (json.get "execution_model")
  let pipelineBufferSizeMb ← parsePipeline pipeline (json.get "pipeline")
  let controlPath ← parseControl (json.get "control")
  return ⟨tasks, logLevel, cpuAffinity, pipeline, pipelineBufferSizeMb, controlPath⟩

end CloudProbe.Worker
