import CloudProbe.Daemon.Strategy
import Mathlib.Data.Finmap
import Mathlib.Data.Finset.Sort
import Mathlib.Data.List.Lex
import Mathlib.Order.Fin.Basic

/-!
# Fingerprints

The fingerprint of a task is a hash of its labels, which come from a walk over its fields by
reflection.

* **Values under reflection** (`GoValue`), and the walk (`appendFingerprintLabels`) that gives a
  text for each leaf, under the path of its field names.
* **Tasks as such values** (`TaskConfig.reflect`): the fields under the names of their JSON tags.
* **The hash** (`hashInput`, `labelsToFingerprint`): the labels in the order of their keys, each
  text ended by the byte 255, folded into 64 bits.

Configurations are in `worker/config.go`, other sources without a file in
`common/fingerprint_reflect.go`.
-/

namespace CloudProbe.Daemon

/-! ## The walk -/

/-- What the walk sees of a value. Leaves are given by their printed text; fields that the walk
skips are left out.
Source: `reflect.Value`, by its kinds -/
inductive GoValue where
  | nil
  | ptr (elem : GoValue)
  | struct (fields : List (String × GoValue))
  | slice (items : List GoValue)
  | leaf (text : String)

/-- Source: `strings.TrimSuffix(_, ".")` -/
def trimSuffixDot (path : List Char) : List Char :=
  if path.getLast? = some '.' then path.dropLast else path

mutual

/-- Source: `appendFingerprintLabels` -/
def appendFingerprintLabels (path : List Char) : GoValue → List (String × String)
  | .nil => []
  | .ptr elem => appendFingerprintLabels path elem
  | .struct fields => appendFieldLabels path fields
  | .slice items => appendItemLabels path 0 items
  | .leaf text => [(String.ofList (trimSuffixDot path), text)]

/-- Source: `appendFingerprintLabels`, of a struct -/
def appendFieldLabels (path : List Char) : List (String × GoValue) → List (String × String)
  | [] => []
  | (name, field) :: fields =>
    appendFingerprintLabels (path ++ name.toList ++ ['.']) field ++ appendFieldLabels path fields

/-- Source: `appendFingerprintLabels`, of a slice -/
def appendItemLabels (path : List Char) (i : ℕ) : List GoValue → List (String × String)
  | [] => []
  | item :: items =>
    appendFingerprintLabels (path ++ (toString i).toList ++ ['.']) item ++
      appendItemLabels path (i + 1) items

end

/-! ## Tasks -/

namespace GoValue

def ofOption {α : Type} [ToString α] (value : Option α) : GoValue :=
  match value with
  | none => .nil
  | some v => .ptr (.leaf (toString v))

def ofPtr {α : Type} (reflect : α → GoValue) (value : Option α) : GoValue :=
  match value with
  | none => .nil
  | some v => .ptr (reflect v)

end GoValue

open GoValue

def CustomReqPatternConfig.reflect (c : CustomReqPatternConfig) : GoValue := .struct
  [("pattern", .leaf c.pattern)]

def ReqPatternConfig.reflect (c : ReqPatternConfig) : GoValue := .struct
  [("type", .leaf c.type),
   ("custom", ofPtr CustomReqPatternConfig.reflect c.custom)]

def LibpcapConfig.reflect (c : LibpcapConfig) : GoValue := .struct
  [("interface", .leaf c.interface),
   ("snaplen", ofOption c.snaplen),
   ("netns", ofOption c.netns),
   ("bpf", ofOption c.bpf),
   ("buffer_size_mb", ofOption c.bufferSizeMb),
   ("timeout_ms", ofOption c.timeoutMs),
   ("not_filter_output_hosts", ofOption c.notFilterOutputHosts)]

def CapturerConfig.reflect (c : CapturerConfig) : GoValue := .struct
  [("type", .leaf c.type), ("libpcap", ofPtr LibpcapConfig.reflect c.libpcap)]

def PacketSplitConfig.reflect (c : PacketSplitConfig) : GoValue := .struct
  [("max_payload_size", ofOption c.maxPayloadSize),
   ("recalculate_checksum", ofOption c.recalculateChecksum)]

def VxlanOutputConfig.reflect (c : VxlanOutputConfig) : GoValue := .struct
  [("host", .leaf c.host),
   ("port", ofOption c.port),
   ("capture_time", ofOption c.captureTime),
   ("vni1", ofOption c.vni1),
   ("vni2", ofOption c.vni2),
   ("bind_device", ofOption c.bindDevice),
   ("pmtudisc", ofOption c.pmtudisc),
   ("split", ofPtr PacketSplitConfig.reflect c.split)]

def GreOutputConfig.reflect (c : GreOutputConfig) : GoValue := .struct
  [("host", .leaf c.host),
   ("service_tag", ofOption c.serviceTag),
   ("bind_device", ofOption c.bindDevice),
   ("pmtudisc", ofOption c.pmtudisc)]

def ZmqOutputConfig.reflect (c : ZmqOutputConfig) : GoValue := .struct
  [("host", .leaf c.host),
   ("port", .leaf (toString c.port)),
   ("hwm", ofOption c.hwm),
   ("service_tag", ofOption c.serviceTag),
   ("uuid", .leaf c.uuid),
   ("heartbeat_ms", ofOption c.heartbeatMs)]

def FileOutputConfig.reflect (c : FileOutputConfig) : GoValue := .struct [("name", .leaf c.name)]

def RotatingFileOutputConfig.reflect (c : RotatingFileOutputConfig) : GoValue := .struct
  [("file_root", .leaf c.fileRoot), ("max_file_interval", ofOption c.maxFileInterval)]

def OutputConfig.reflect (c : OutputConfig) : GoValue := .struct
  [("type", .leaf c.type),
   ("rate_limit_mbps", ofOption c.rateLimitMbps),
   ("slice", ofOption c.slice),
   ("vxlan", ofPtr VxlanOutputConfig.reflect c.vxlan),
   ("gre", ofPtr GreOutputConfig.reflect c.gre),
   ("zmq", ofPtr ZmqOutputConfig.reflect c.zmq),
   ("file", ofPtr FileOutputConfig.reflect c.file),
   ("rotating_file", ofPtr RotatingFileOutputConfig.reflect c.rotatingFile)]

/-- A task, without its fingerprint, which is tagged to be skipped.
Source: `TaskConfig` -/
def TaskConfig.reflect (c : TaskConfig) : GoValue := .struct
  [("req_pattern", ofPtr ReqPatternConfig.reflect c.reqPattern),
   ("capturer", c.capturer.reflect),
   ("outputs", .slice (c.outputs.map OutputConfig.reflect))]

/-! ## Labels and their hash -/

abbrev Bytes := List UInt8

/-- Source: `map[string]string` -/
abbrev Labels := Finmap fun _ : Bytes => Bytes

def utf8 (s : String) : Bytes := s.toByteArray.toList

def Labels.ofWrites (writes : List (String × String)) : Labels :=
  writes.foldl (fun labels write => labels.insert (utf8 write.1) (utf8 write.2)) ∅

/-- Source: `StructFingerprintLabels` -/
def structFingerprintLabels (v : GoValue) : Labels := .ofWrites (appendFingerprintLabels [] v)

def TaskConfig.fingerPrintLables (c : TaskConfig) : Labels :=
  structFingerprintLabels (.ptr c.reflect)

/-- Source: `common/signature.go` `SeparatorByte` -/
def separatorByte : UInt8 := 255

/-- What one label adds to the input of the hash.
Source: `common/signature.go` `LabelsToFingerprint`, the body of its loop -/
def labelInput (key value : Bytes) : Bytes := key ++ [separatorByte] ++ value ++ [separatorByte]

/-- The bytes fed to the hash: the labels in the order of their keys.
Source: `common/signature.go` `LabelsToFingerprint` -/
def hashInput (labels : Labels) : Bytes :=
  (labels.keys.sort (· ≤ ·)).flatMap fun key => labelInput key ((labels.lookup key).getD [])

def Labels.words (labels : Labels) : List Bytes :=
  (labels.keys.sort (· ≤ ·)).flatMap fun key => [key, (labels.lookup key).getD []]

/-- Source: `common/fnv.go` `hashAddByte` -/
def hashAddByte (h : UInt64) (b : UInt8) : UInt64 := (h ^^^ b.toUInt64) * 1099511628211

/-- Source: `common/signature.go` `LabelsToFingerprint` -/
def labelsToFingerprint (labels : Labels) : UInt64 :=
  (hashInput labels).foldl hashAddByte 14695981039346656037

def hexByte (n : ℕ) : List Char := [Nat.digitChar (n / 16), Nat.digitChar (n % 16)]

/-- The sixteen digits of a hash, as the bytes of a UUID, in the usual text form.
Source: `common/fingerprint.go` `Fingerprint.UUID` with `String` -/
def fingerprintText (h : UInt64) : String :=
  let digits := (List.range 8).flatMap fun i => hexByte (h.toNat / 256 ^ (7 - i) % 256)
  let group := fun lo len =>
    ((digits.drop lo).take len).flatMap fun digit => hexByte digit.toNat
  String.ofList (List.intercalate ['-'] [group 0 4, group 4 2, group 6 2, group 8 2, group 10 6])

end CloudProbe.Daemon
