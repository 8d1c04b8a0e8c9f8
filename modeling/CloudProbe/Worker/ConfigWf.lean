import CloudProbe.Lib.Ensures
import CloudProbe.Worker.Config
import CloudProbe.Worker.ParseConfig
import Mathlib.Data.Int.ConditionallyCompleteOrder

/-!
# What the parser lets through

The parser reads any JSON tree. What it accepts is a configuration whose numbers fit the fields they
are kept in (`ParsedConfig.Wf`, by the rules of `Ensures` along the parser), and from which the task
manager can start.
-/

namespace CloudProbe.Worker

open Lib List

/-! ## Well-formed values -/

def ParsedCapturer.Wf : ParsedCapturer → Prop
  | .libpcap _ _ snaplen _ bufferSizeMb timeoutMs _ =>
    snaplen ∈ Set.Icc 1 maxSnaplen ∧ bufferSizeMb ∈ Set.Icc 1 maxLibpcapBufferSizeMb ∧
      timeoutMs ∈ Set.Icc 0 intMax
  | .pcapFile _ _ => True
  | .dpdkPdump _ snaplen _ ringSize =>
    snaplen ∈ Set.Icc 1 maxSnaplen ∧ ringSize ∈ Set.Icc 2 1073741824

def ParsedOutputKind.Wf : ParsedOutputKind → Prop
  | .vxlan _ port _ vni _ _ split =>
    port ∈ Set.Icc 1 65535 ∧
      (vni.1 = 1 ∧ vni.2 ∈ Set.Ico 0 16777216 ∨ vni.1 = 2 ∧ vni.2 ∈ Set.Icc 0 uint32Max) ∧
      split.maxPayloadSize ∈ Set.Icc 0 65535
  | .gre _ serviceTag _ _ => serviceTag ∈ Set.Icc 0 uint32Max
  | .zmq _ port hwm serviceTag _ heartbeatMs =>
    port ∈ Set.Icc 1 65535 ∧ hwm ∈ Set.Icc 0 intMax ∧ serviceTag ∈ Set.Icc 0 uint32Max ∧
      heartbeatMs ∈ Set.Icc 0 60000
  | .file _ => True
  | .rotatingFile _ maxFileInterval => maxFileInterval ∈ Set.Icc 0 intMax
  | .null => True

structure ParsedOutput.Wf (o : ParsedOutput) : Prop where
  rateLimitMbps : o.rateLimitMbps ∈ Set.Icc 0 intMax
  slice : o.slice ∈ Set.Icc 0 intMax
  kind : o.kind.Wf

structure ParsedTask.Wf (t : ParsedTask) : Prop where
  fingerprint : t.fingerprint ≠ some ""
  capturer : t.capturer.Wf
  outputs : ∀ o ∈ t.outputs, o.Wf

/-- What the parser lets through: only a pipeline has a buffer, and its bytes fit a `size_t`. -/
structure ParsedConfig.Wf (c : ParsedConfig) : Prop where
  tasks : ∀ t ∈ c.tasks, t.Wf
  unique : (c.tasks.filterMap ParsedTask.fingerprint).Nodup
  pipelineBufferSizeMb : if c.pipeline then c.pipelineBufferSizeMb ∈ Set.Icc 1
    maxPipelineBufferSizeMb else c.pipelineBufferSizeMb = 0

/-! ## Fields -/

theorem ensures_getInt64Range (item : Json) (name : String) (min max : ℤ) :
    Ensures (getInt64Range item name min max) (· ∈ Set.Icc min max) := by
  unfold getInt64Range
  split
  · refine .ite (fun _ => ensures_error) fun hin => ensures_ok.mpr ?_
    simp only [not_or, not_lt, not_not] at hin
    rw [← hin.2.2] at hin
    exact ⟨by exact_mod_cast hin.1, by exact_mod_cast hin.2.1⟩
  · exact ensures_error

theorem ensures_optionalRange {min max default : ℤ} (hdefault : default ∈ Set.Icc min max)
    (item : Option Json) (name : String) :
    Ensures (optionalRange item name min max default) (· ∈ Set.Icc min max) := by
  rcases item with _ | item
  · exact ensures_ok.mpr hdefault
  · exact ensures_getInt64Range item name min max

theorem ensures_optionalCut {default : ℤ} (hdefault : default ∈ Set.Icc 0 intMax)
    (item : Option Json) (name : String) :
    Ensures (optionalCut item name default) (· ∈ Set.Icc 0 intMax) := by
  rcases item with _ | item
  · exact ensures_ok.mpr hdefault
  · simp only [optionalCut, ensures_bind]
    intro value _
    refine .check fun hsign => ensures_pure.mpr ?_
    unfold intMax
    constructor <;> split_ifs <;> omega

theorem ensures_parseSnaplen (obj : Json) (name : String) (nonPositiveMeansMax : Bool) :
    Ensures (parseSnaplen obj name nonPositiveMeansMax) (· ∈ Set.Icc 1 maxSnaplen) := by
  unfold parseSnaplen
  rcases obj.get "snaplen" with _ | item
  · exact ensures_ok.mpr (by decide)
  · simp only [ensures_bind]
    intro value _
    refine .check fun _ => ensures_pure.mpr ?_
    unfold maxSnaplen
    constructor <;> split_ifs <;> omega

theorem ensures_parseLibpcapBufferSize (item : Option Json) :
    Ensures (parseLibpcapBufferSize item) (· ∈ Set.Icc 1 maxLibpcapBufferSizeMb) := by
  rcases item with _ | item
  · exact ensures_ok.mpr (by decide)
  · simp only [parseLibpcapBufferSize, ensures_bind]
    intro value _
    refine .check fun hsign => ensures_pure.mpr ?_
    have hmax : 1 ≤ maxLibpcapBufferSizeMb := by decide
    constructor <;> split_ifs <;> omega

/-! ## Capturers and outputs -/

/-- Every capturer the parser accepts is well-formed. -/
theorem wf_parseCapturerConfig (engine : Json) :
    Ensures (parseCapturerConfig engine) ParsedCapturer.Wf := by
  simp only [parseCapturerConfig, ensures_bind]
  intro type _
  refine .ite (fun _ => ?_) fun _ => .ite (fun _ => ?_) fun _ => .ite (fun _ => ?_) fun _ =>
    ensures_throw
  · simp only [parseLibpcap, ensures_bind]
    intro obj _ interface _ netns _ snaplen hsnaplen bpfFilter _ size hsize timeout htimeout _ _
    exact ensures_pure.mpr ⟨ensures_parseSnaplen _ _ _ _ hsnaplen,
      ensures_parseLibpcapBufferSize _ _ hsize,
      ensures_optionalCut (by decide) _ _ _ htimeout⟩
  · simp only [parsePcapFile, ensures_bind]
    intro obj _ fileName _ bpfFilter _
    exact ensures_pure.mpr trivial
  · simp only [parseDpdkPdump, ensures_bind]
    intro obj _ interface _ snaplen hsnaplen bpfFilter _ ringSize hring
    exact ensures_pure.mpr ⟨ensures_parseSnaplen _ _ _ _ hsnaplen,
      ensures_optionalRange (by decide) _ _ _ hring⟩

theorem wf_parseVni (vni1 vni2 : Option Json) :
    Ensures (parseVni vni1 vni2) fun vni =>
      vni.1 = 1 ∧ vni.2 ∈ Set.Ico 0 16777216 ∨ vni.1 = 2 ∧ vni.2 ∈ Set.Icc 0 uint32Max := by
  rcases vni1 with _ | vni1 <;> rcases vni2 with _ | vni2 <;>
    simp only [parseVni, ensures_bind, ensures_error]
  · exact fun value hvalue => ensures_pure.mpr (.inr ⟨rfl, ensures_getInt64Range _ _ _ _ _ hvalue⟩)
  · exact fun value _ => ensures_pure.mpr (.inl ⟨rfl, Int.emod_nonneg _ (by decide),
      Int.emod_lt_of_pos _ (by decide)⟩)

theorem wf_parseSplitConfig (item : Option Json) :
    Ensures (parseSplitConfig item) fun split => split.maxPayloadSize ∈ Set.Icc 0 65535 := by
  rcases item with _ | item
  · exact ensures_ok.mpr (by decide)
  · simp only [parseSplitConfig, ensures_bind]
    intro size hsize _ _
    exact ensures_pure.mpr (ensures_optionalRange (by decide) _ _ _ hsize)

/-- Every output the parser accepts is well-formed. -/
theorem wf_parseOutputKind (output : Json) (type : String) :
    Ensures (parseOutputKind output type) ParsedOutputKind.Wf := by
  unfold parseOutputKind
  refine .ite (fun _ => ?vxlan) fun _ => .ite (fun _ => ?gre) fun _ => .ite (fun _ => ?zmq) fun _ =>
    .ite (fun _ => ?file) fun _ => .ite (fun _ => ?rotatingFile) fun _ =>
    .ite (fun _ => ensures_ok.mpr trivial) fun _ => ensures_error
  case vxlan =>
    simp only [parseVxlan, wrapError, ensures_bind, ensures_mapError]
    intro obj _ host _ port hport _ _ vni hvni _ _ _ _ split hsplit
    exact ensures_pure.mpr ⟨ensures_optionalRange (by decide) _ _ _ hport, wf_parseVni _ _ _ hvni,
      wf_parseSplitConfig _ _ hsplit⟩
  case gre =>
    simp only [parseGre, ensures_bind]
    intro obj _ host _ serviceTag htag _ _ _ _
    exact ensures_pure.mpr (ensures_optionalRange (by decide) _ _ _ htag)
  case zmq =>
    simp only [parseZmq, ensures_bind]
    intro obj _ host _ port hport hwm hhwm serviceTag htag _ _ heartbeatMs hms
    refine ensures_pure.mpr ⟨?_, ensures_optionalCut (by decide) _ _ _ hhwm,
      ensures_optionalRange (by decide) _ _ _ htag, ensures_optionalRange (by decide) _ _ _ hms⟩
    rcases hitem : obj.get "port" with _ | item
    · rw [hitem] at hport
      cases hport
    · rw [hitem] at hport
      exact ensures_getInt64Range _ _ _ _ _ hport
  case file =>
    simp only [parseFile, ensures_bind]
    exact fun obj _ name _ => ensures_pure.mpr trivial
  case rotatingFile =>
    simp only [parseRotatingFile, ensures_bind]
    intro obj _ fileRoot _ interval hinterval
    exact ensures_pure.mpr (ensures_optionalCut (by decide) _ _ _ hinterval)

theorem wf_parseOutputs (i : ℕ) (items : List Json) :
    Ensures (parseOutputs i items) fun outputs => ∀ o ∈ outputs, o.Wf := by
  induction items generalizing i with
  | nil => exact ensures_ok.mpr (by simp)
  | cons json rest ih =>
    refine .check fun _ => ?_
    simp only [parseOutputConfig, wrapError, ensures_bind, ensures_mapError]
    intro type _ rate hrate slice hslice kind hkind
    refine ensures_pure.mpr fun outputs houtputs => ensures_pure.mpr (forall_mem_cons.mpr
      ⟨⟨ensures_optionalCut (by decide) _ _ _ hrate, ensures_optionalCut (by decide) _ _ _ hslice,
        wf_parseOutputKind _ _ _ hkind⟩, ih _ _ houtputs⟩)

/-! ## Tasks -/

/-- Every task the parser accepts is well-formed. -/
theorem wf_parseTaskConfig (json : Json) : Ensures (parseTaskConfig json) ParsedTask.Wf := by
  simp only [parseTaskConfig, ensures_bind]
  intro fingerprint hfingerprint _ _ capturer hcapturer items _ outputs houtputs
  refine ensures_pure.mpr ⟨?_, ?_, wf_parseOutputs _ _ _ houtputs⟩
  · have hnonempty : Ensures (parseFingerprint (json.get "fingerprint")) (· ≠ some "") := by
      unfold parseFingerprint
      split <;> simp only [ensures_ok, ensures_error, ne_eq, reduceCtorEq, not_false_eq_true]
      split_ifs with hempty <;> simp [hempty]
    exact hnonempty _ hfingerprint
  · have hwf : Ensures (parseTaskCapturer (json.get "capturer")) ParsedCapturer.Wf := by
      unfold parseTaskCapturer
      split
      · exact ensures_mapError.mpr (wf_parseCapturerConfig _)
      · exact ensures_error
    exact hwf _ hcapturer

/-! ## The configuration of the task manager -/

/-- Source: `config.h` `CapturerConfig` -/
def ParsedCapturer.toCapturer : ParsedCapturer → CapturerConfig
  | .libpcap _ _ _ bpfFilter _ _ notFilterOutputHosts => .libpcap bpfFilter notFilterOutputHosts
  | .pcapFile _ bpfFilter => .pcapFile bpfFilter
  | .dpdkPdump _ _ bpfFilter _ => .dpdkPdump bpfFilter

/-- Source: `config.h` `OutputConfig` -/
def ParsedOutputKind.toOutput : ParsedOutputKind → OutputConfig
  | .vxlan host _ _ _ _ _ _ => .vxlan host
  | .gre host _ _ _ => .gre host
  | .zmq host _ _ _ _ _ => .zmq host
  | .file _ => .file
  | .rotatingFile _ _ => .rotatingFile
  | .null => .null

def ParsedTask.toTask (t : ParsedTask) : TaskConfig :=
  ⟨t.fingerprint, t.capturer.toCapturer, t.outputs.map (·.kind.toOutput)⟩

/-- **The loop lemma** for the array of tasks. -/
theorem wf_parseTaskItems (tasks : List ParsedTask) (items : List Json) :
    Ensures (parseTaskItems tasks items) fun all => ∃ read, (∀ t ∈ read, t.Wf) ∧
      all = tasks ++ read ∧ parseTasks (tasks.map ParsedTask.toTask)
        (read.map ParsedTask.toTask) = .ok (all.map ParsedTask.toTask) := by
  induction items generalizing tasks with
  | nil => exact ensures_ok.mpr ⟨[], by simp, by simp, rfl⟩
  | cons json rest ih =>
    refine .check fun _ => ?_
    simp only [wrapError, ensures_bind, ensures_mapError]
    intro task htask _ hcheck all hall
    obtain ⟨read, hread, rfl, hparse⟩ := ih _ _ hall
    refine ⟨task :: read, forall_mem_cons.mpr ⟨wf_parseTaskConfig _ _ htask, hread⟩,
      by simp, ?_⟩
    rw [map_append, map_singleton] at hparse
    rw [map_cons, parseTasks]
    unfold checkFingerprint at hcheck
    rcases hfp : task.fingerprint with _ | fp
    · have hnone : task.toTask.fingerprint = none := hfp
      simp only [hnone]
      exact hparse
    · have hsome : task.toTask.fingerprint = some fp := hfp
      rw [hfp] at hcheck
      dsimp only at hcheck
      split_ifs at hcheck with hdup
      simp only [hsome, any_map]
      exact (if_neg hdup).trans hparse

/-- **What the parser accepts is well-formed**: every number fits its field, and no fingerprint is
empty or given twice. -/
theorem parsed_config_wf {json : Json} {parsed : ParsedConfig}
    (h : parseConfigJson json = .ok parsed) :
    parsed.Wf ∧ ∃ config : Config, config.tasks = parsed.tasks.map ParsedTask.toTask ∧
      config.executionModel = (if parsed.pipeline then .pipeline else .rtc) ∧
      config.bufferSizeMb = parsed.pipelineBufferSizeMb := by
  revert parsed
  show Ensures (parseConfigJson json) _
  simp only [parseConfigJson, parseTasksJson, ensures_bind]
  intro items _ tasks htasks _ _ _ _ pipeline _ size hsize _ _
  refine ensures_pure.mpr ?_
  obtain ⟨_, htasks, rfl, hparse⟩ := wf_parseTaskItems _ _ _ htasks
  have hunique : ((tasks.map ParsedTask.toTask).filterMap TaskConfig.fingerprint).Nodup :=
    parseTasks_nodup (by simp) hparse
  have hbuffer : if pipeline then size ∈ Set.Icc 1 maxPipelineBufferSizeMb else size = 0 := by
    unfold parsePipeline at hsize
    split_ifs at hsize ⊢ with hpipeline
    · revert size
      show Ensures _ (· ∈ Set.Icc 1 maxPipelineBufferSizeMb)
      split
      · exact ensures_error
      · unfold parsePipelineBuffer
        split
        · exact ensures_error
        · exact ensures_getInt64Range _ _ _ _
      · exact ensures_error
    · exact (Except.ok.inj hsize).symm
  have hrange : 0 ≤ size ∧ size ≤ maxPipelineBufferSizeMb := by
    unfold maxPipelineBufferSizeMb at hbuffer ⊢
    split_ifs at hbuffer
    · exact ⟨by linarith [hbuffer.1], hbuffer.2⟩
    · omega
  refine ⟨⟨htasks, ?_, hbuffer⟩,
    ⟨⟨_, hunique⟩, if pipeline then .pipeline else .rtc, size.toNat, ?_⟩, rfl, rfl, ?_⟩
  · rwa [filterMap_map] at hunique
  · unfold maxPipelineBufferSizeMb at hrange
    omega
  · exact Int.toNat_of_nonneg hrange.1

/-- Two tasks for the pipeline: live capture to a VXLAN output that splits and a ZMQ output with a
rate limit, and a file to a rotating file. -/
def sampleTree : Json :=
  let vxlan : Json := .object [("host", .string "10.0.0.1"), ("vni1", .number 7),
    ("split", .object [("max_payload_size", .number 1400), ("recalculate_checksum", .bool true)])]
  let zmq : Json := .object [("host", .string "10.0.0.2"), ("port", .number 5555)]
  let libpcap : Json := .object [("interface", .string "eth0"), ("snaplen", .number 65535)]
  .object
    [("execution_model", .string "pipeline"),
     ("pipeline", .object [("buffer_size_mb", .number 64)]),
     ("tasks", .array
      [.object
        [("fingerprint", .string "a"),
         ("capturer", .object [("type", .string "libpcap"), ("libpcap", libpcap)]),
         ("outputs", .array [.object [("type", .string "vxlan"), ("vxlan", vxlan)],
            .object [("type", .string "zmq"), ("rate_limit_mbps", .number 100), ("zmq", zmq)]])],
       .object
        [("fingerprint", .string "b"),
         ("capturer", .object [("type", .string "pcap_file"),
            ("pcap_file", .object [("file_name", .string "x.pcap")])]),
         ("outputs", .array [.object [("type", .string "rotating_file"),
            ("rotating_file", .object [("file_root", .string "/dumps")])]])]])]

def sampleTasks : List ParsedTask :=
  [⟨some "a", .none, .libpcap "eth0" "" 65535 "" 256 0 false,
    [⟨0, 0, .vxlan "10.0.0.1" 4789 false (1, 7) "" .unset ⟨1400, true⟩⟩,
      ⟨100, 0, .zmq "10.0.0.2" 5555 100 uint32Max "" 0⟩]⟩,
   ⟨some "b", .none, .pcapFile "x.pcap" "", [⟨0, 0, .rotatingFile "/dumps" 60⟩]⟩]

theorem parsed_config_wf_sample :
    ∃ parsed, parseConfigJson sampleTree = .ok parsed ∧ parsed.tasks = sampleTasks ∧
      parsed.Wf := by
  have hparse : parseConfigJson sampleTree = .ok ⟨sampleTasks, .info, "", true, 64, none⟩ := by
    decide +kernel
  exact ⟨_, hparse, rfl, (parsed_config_wf hparse).1⟩

end CloudProbe.Worker
