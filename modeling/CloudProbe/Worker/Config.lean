import Mathlib.Algebra.Group.Nat.Defs
import Mathlib.Data.List.Nodup
import Mathlib.Tactic.Common

/-!
# Configuration and the filter of a capturer

The parts of the parsed configuration that the task manager reads, and the filter a capturer is
opened with.

* **Unique fingerprints** (`TasksAllConfig`): a parsed task list carries the proof that its
  fingerprints are pairwise different; `parseTasks` is the check that gives it.
* **Host exclusion** (`bpfFilterExcludeTaskOutputHosts`): the filter text of a `libpcap` task names
  every forward host of every task. `BpfFilter` is the same filter with its parts apart;
  `bpfFilterExcludeTaskOutputHosts_eq` says that the text is exactly these parts.
-/

namespace CloudProbe.Worker

open List

/-- An output, with the host it forwards to.
Source: `config.h` `OutputConfig` -/
inductive OutputConfig where
  | vxlan (host : String)
  | gre (host : String)
  | zmq (host : String)
  | file
  | rotatingFile
  | null
deriving DecidableEq

/-- A capturer, with the filter the user gave it.
Source: `config.h` `CapturerConfig` -/
inductive CapturerConfig where
  | libpcap (bpfFilter : String) (notFilterOutputHosts : Bool)
  | pcapFile (bpfFilter : String)
  | dpdkPdump (bpfFilter : String)
deriving DecidableEq

/-- A task; the fingerprint is optional.
Source: `config.h` `TaskConfig` -/
structure TaskConfig where
  fingerprint : Option String
  capturer : CapturerConfig
  outputs : List OutputConfig
deriving DecidableEq

/-- The check of one task against the tasks read before it, over the whole array.
Source: `config.c` `parse_tasks_json` -/
def parseTasks (tasks : List TaskConfig) : List TaskConfig → Except String (List TaskConfig)
  | [] => .ok tasks
  | task :: rest =>
    match task.fingerprint with
    | none => parseTasks (tasks ++ [task]) rest
    | some fp =>
      if tasks.any (fun t => t.fingerprint = some fp) then
        .error ("duplicate fingerprint '" ++ fp ++ "'")
      else parseTasks (tasks ++ [task]) rest

/-- The task list of a configuration.
Source: `config.h` `TasksAllConfig` -/
structure TasksAllConfig where
  tasks : List TaskConfig
  unique : (tasks.filterMap TaskConfig.fingerprint).Nodup

/-- No fingerprint is given twice in what was accepted. -/
theorem parseTasks_nodup {tasks rest all : List TaskConfig}
    (htasks : (tasks.filterMap TaskConfig.fingerprint).Nodup)
    (h : parseTasks tasks rest = .ok all) :
    (all.filterMap TaskConfig.fingerprint).Nodup := by
  induction rest generalizing tasks with
  | nil =>
    cases h
    exact htasks
  | cons task rest ih =>
    unfold parseTasks at h
    cases hfp : task.fingerprint with
    | none =>
      simp only [hfp] at h
      refine ih ?_ h
      simpa [filterMap_append, hfp] using htasks
    | some fp =>
      simp only [hfp] at h
      split_ifs at h with hdup
      refine ih ?_ h
      have hnew : fp ∉ tasks.filterMap TaskConfig.fingerprint := by
        intro hmem
        obtain ⟨t, ht, htfp⟩ := mem_filterMap.mp hmem
        exact hdup (any_eq_true.mpr ⟨t, ht, by simpa using htfp⟩)
      rw [filterMap_append]
      simp only [filterMap_cons, hfp, filterMap_nil]
      exact nodup_append.mpr ⟨htasks, nodup_singleton fp, by
        intro a ha b hb
        rw [mem_singleton.mp hb]
        rintro rfl
        exact hnew ha⟩

/-- How packets get from the capturers to the outputs.
Source: `config.h` `EXECUTION_MODEL_RTC`, `EXECUTION_MODEL_PIPELINE` -/
inductive ExecutionModel where
  | rtc
  | pipeline
deriving DecidableEq

/-- The configuration; the parser bounds the buffer size so that its bytes fit a `size_t`.
Source: `config.h` `Config` -/
structure Config extends TasksAllConfig where
  executionModel : ExecutionModel
  bufferSizeMb : ℕ
  bufferSize_lt : bufferSizeMb * 1024 * 1024 < 2 ^ 64

theorem zero_bufferSize_lt : 0 * 1024 * 1024 < 2 ^ 64 := by
  decide

def TasksAllConfig.fingerprints (config : TasksAllConfig) : List String :=
  config.tasks.filterMap TaskConfig.fingerprint

/-! ### The filter -/

/-- Source: `config.c` `output_forward_host` -/
def outputForwardHost : OutputConfig → Option String
  | .vxlan host => some host
  | .gre host => some host
  | .zmq host => some host
  | .file => none
  | .rotatingFile => none
  | .null => none

/-- The forward hosts of every output of every task, in order. -/
def forwardHosts (tasks : List TaskConfig) : List String :=
  tasks.flatMap fun task => task.outputs.filterMap outputForwardHost

/-- A host is recorded unless it was seen before.
Source: `config.c` `bpf_filter_exclude_task_output_hosts` -/
def addHost (hosts : List String) (host : String) : List String :=
  if hosts.any (fun h => h = host) then hosts else hosts ++ [host]

/-- The hosts the filter excludes: each forward host once, in order of first occurrence.
Source: `config.c` `bpf_filter_exclude_task_output_hosts` -/
def excludedHosts (tasks : List TaskConfig) : List String :=
  (forwardHosts tasks).foldl addHost []

/-- The loop that prints one clause for each host.
Source: `config.c` `bpf_filter_exclude_task_output_hosts` -/
def printHosts (output : String) (isFirst : Bool) : List String → String
  | [] => output
  | host :: hosts =>
    printHosts (output ++ (if isFirst then "" else " and ") ++ "not host " ++ host) false hosts

/-- Source: `config.c` `bpf_filter_exclude_task_output_hosts` -/
def bpfFilterExcludeTaskOutputHosts (bpf : String) (tasks : List TaskConfig) : String :=
  if bpf ≠ "" then printHosts ("(" ++ bpf ++ ")") false (excludedHosts tasks)
  else printHosts "" true (excludedHosts tasks)

/-- A filter in its parts: the user's filter, unchanged or in parentheses, and the excluded
hosts. -/
structure BpfFilter where
  user : String
  notHosts : List String
deriving DecidableEq

def BpfFilter.clauses (f : BpfFilter) : List String :=
  (if f.user ≠ "" then ["(" ++ f.user ++ ")"] else []) ++ f.notHosts.map ("not host " ++ ·)

/-- No packet from or to an excluded host passes: the filter has the clause for it. -/
def BpfFilter.Excludes (f : BpfFilter) (host : String) : Prop := host ∈ f.notHosts

instance (f : BpfFilter) (host : String) : Decidable (f.Excludes host) :=
  inferInstanceAs (Decidable (host ∈ f.notHosts))

/-- The filter a `libpcap` task is opened with, in its parts.
Source: `libpcap.c` `libpcap_capture_new_from_cfg` -/
def captureFilter (tasks : List TaskConfig) : CapturerConfig → BpfFilter
  | .libpcap bpf false => ⟨bpf, excludedHosts tasks⟩
  | .libpcap bpf true => ⟨bpf, []⟩
  | .pcapFile bpf => ⟨bpf, []⟩
  | .dpdkPdump bpf => ⟨bpf, []⟩

theorem printHosts_eq (output : String) (hosts : List String) :
    printHosts output false hosts =
      String.intercalate " and " (output :: hosts.map ("not host " ++ ·)) := by
  induction hosts generalizing output with
  | nil => rfl
  | cons host hosts ih =>
    rw [printHosts, ih, String.append_assoc]
    rfl

theorem bpfFilterExcludeTaskOutputHosts_eq (bpf : String) (tasks : List TaskConfig) :
    bpfFilterExcludeTaskOutputHosts bpf tasks =
      String.intercalate " and " (BpfFilter.clauses ⟨bpf, excludedHosts tasks⟩) := by
  unfold bpfFilterExcludeTaskOutputHosts BpfFilter.clauses
  split_ifs with hbpf
  · rw [printHosts_eq]
    rfl
  · cases excludedHosts tasks with
    | nil => rfl
    | cons host hosts =>
      rw [printHosts, printHosts_eq]
      simp

theorem mem_foldl_addHost (hosts new : List String) (host : String) :
    host ∈ new.foldl addHost hosts ↔ host ∈ hosts ∨ host ∈ new := by
  induction new generalizing hosts with
  | nil => simp
  | cons h new ih =>
    rw [foldl_cons, ih, mem_cons]
    unfold addHost
    split_ifs with hseen
    · have hmem : h ∈ hosts := by simpa using hseen
      constructor
      · rintro (hl | hr)
        · exact Or.inl hl
        · exact Or.inr (Or.inr hr)
      · rintro (hl | rfl | hr)
        · exact Or.inl hl
        · exact Or.inl hmem
        · exact Or.inr hr
    · rw [mem_append, mem_singleton, or_assoc]

theorem mem_excludedHosts (tasks : List TaskConfig) (host : String) :
    host ∈ excludedHosts tasks ↔ host ∈ forwardHosts tasks := by
  rw [excludedHosts, mem_foldl_addHost]
  simp

end CloudProbe.Worker
