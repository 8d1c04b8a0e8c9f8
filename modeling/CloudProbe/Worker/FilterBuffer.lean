import CloudProbe.Lib.Bytes
import CloudProbe.Worker.Config
import Mathlib.Data.List.Induction

/-!
# The buffer of the exclusion filter

`bpf_filter_exclude_task_output_hosts` runs over the outputs twice: it collects the hosts into an
array of `max_hosts` places and adds up the size of the text, then prints into a block of that size
with `sprintf`, which knows no bound. A write outside of the memory ends the run with `none`.

* **First pass** (`scanTasks_eq`): no host is written past the array, and what size is asked for.
* **Second pass** (`Cursor.Prints`): the block holds the text printed so far and is untouched behind
  it; each clause has its room in what the first pass added for its host.

Sources without a file are in `config.c`.
-/

namespace CloudProbe.Worker

open Lib List

/-- The bytes of a C string, without its terminator. -/
def cBytes (text : String) : List UInt8 := text.toByteArray.data.toList

def strlen (text : String) : ℕ := (cBytes text).length

@[simp] theorem cBytes_append (s t : String) : cBytes (s ++ t) = cBytes s ++ cBytes t := by
  simp [cBytes]

@[simp] theorem strlen_append (s t : String) : strlen (s ++ t) = strlen s + strlen t := by
  simp [strlen]

/-- What the allocator answers: room for an array of that many pointers, and a block of the size
asked for, with whatever bytes were there. -/
structure Heap where
  calloc : ℕ → Bool
  malloc : ℕ → Option (List UInt8)
  length_malloc : ∀ size block, malloc size = some block → block.length = size

/-! ## The first pass -/

/-- The hosts collected so far, and the size of the text.
Source: `bpf_filter_exclude_task_output_hosts` -/
structure HostScan where
  hosts : List String
  bufSize : ℕ
deriving DecidableEq

/-- The room for the text around a host.
Source: `bpf_filter_exclude_task_output_hosts` -/
def extraSize : ℕ := strlen " and not host "

/-- The places of the array: one for each output.
Source: `bpf_filter_exclude_task_output_hosts` -/
def maxHosts (tasks : List TaskConfig) : ℕ :=
  tasks.foldl (fun places task => places + task.outputs.length) 0

/-- The body of the inner loop: the host of one output is recorded unless it was seen.
Source: `bpf_filter_exclude_task_output_hosts` -/
def scanOutput (places : ℕ) (scan : HostScan) (output : OutputConfig) : Option HostScan :=
  match outputForwardHost output with
  | none => some scan
  | some host =>
    if scan.hosts.any (fun h => h = host) then some scan
    else if scan.hosts.length < places then
      some ⟨scan.hosts ++ [host], scan.bufSize + (strlen host + extraSize)⟩
    else none

/-- Source: `bpf_filter_exclude_task_output_hosts` -/
def scanTask (places : ℕ) (scan : HostScan) (task : TaskConfig) : Option HostScan :=
  task.outputs.foldlM (scanOutput places) scan

/-- The first pass: one byte for the terminator, two for the parentheses.
Source: `bpf_filter_exclude_task_output_hosts` -/
def scanTasks (bpf : String) (tasks : List TaskConfig) : Option HostScan :=
  tasks.foldlM (scanTask (maxHosts tasks)) ⟨[], strlen bpf + 1 + 2⟩

def clausesSize (hosts : List String) : ℕ := (hosts.map fun host => strlen host + extraSize).sum

def HostScan.of (bpf : String) (hosts : List String) : HostScan :=
  ⟨hosts, strlen bpf + 1 + 2 + clausesSize hosts⟩

theorem length_addHost_le (hosts : List String) (host : String) :
    (addHost hosts host).length ≤ hosts.length + 1 := by
  unfold addHost
  split_ifs
  · exact Nat.le_succ _
  · rw [length_append, length_singleton]

theorem scanOutput_of {bpf : String} {places : ℕ} {hosts : List String} (output : OutputConfig)
    (hplaces : hosts.length < places) :
    scanOutput places (.of bpf hosts) output =
      some (.of bpf ((outputForwardHost output).toList.foldl addHost hosts)) := by
  unfold scanOutput
  cases outputForwardHost output with
  | none => rfl
  | some host =>
    rw [Option.toList_some, foldl_cons, foldl_nil, addHost]
    by_cases hseen : hosts.any (fun h => h = host)
    · rw [if_pos hseen]
      exact if_pos hseen
    · rw [if_neg hseen]
      refine (if_neg hseen).trans ((if_pos hplaces).trans ?_)
      simp [HostScan.of, clausesSize, Nat.add_assoc]

/-- **The loop lemma** of the first pass. -/
theorem foldlM_scanOutput {bpf : String} {places : ℕ} {hosts : List String}
    (outputs : List OutputConfig) (hplaces : hosts.length + outputs.length ≤ places) :
    outputs.foldlM (scanOutput places) (.of bpf hosts) =
      some (.of bpf ((outputs.filterMap outputForwardHost).foldl addHost hosts)) := by
  induction outputs generalizing hosts with
  | nil => rfl
  | cons output outputs ih =>
    rw [length_cons] at hplaces
    have hstep : ((outputForwardHost output).toList.foldl addHost hosts).length ≤
        hosts.length + 1 := by
      cases outputForwardHost output with
      | none => exact Nat.le_succ _
      | some host => exact length_addHost_le hosts host
    rw [foldlM_cons, scanOutput_of output (by omega)]
    refine (ih (by omega)).trans ?_
    cases hhost : outputForwardHost output with
    | none => rw [filterMap_cons_none hhost]; rfl
    | some host => rw [filterMap_cons_some hhost]; rfl

theorem foldlM_scanTask (places : ℕ) (scan : HostScan) (tasks : List TaskConfig) :
    tasks.foldlM (scanTask places) scan =
      (tasks.flatMap TaskConfig.outputs).foldlM (scanOutput places) scan := by
  induction tasks generalizing scan with
  | nil => rfl
  | cons task tasks ih =>
    rw [foldlM_cons, flatMap_cons, foldlM_append]
    exact bind_congr fun scan' => ih scan'

theorem maxHosts_eq (tasks : List TaskConfig) :
    maxHosts tasks = (tasks.flatMap TaskConfig.outputs).length := by
  suffices h : ∀ places, tasks.foldl (fun places task => places + task.outputs.length) places =
      places + (tasks.flatMap TaskConfig.outputs).length by
    rw [maxHosts, h, Nat.zero_add]
  induction tasks with
  | nil => exact fun _ => rfl
  | cons task tasks ih =>
    intro places
    rw [foldl_cons, ih, flatMap_cons, length_append, Nat.add_assoc]

/-- **The first pass** stays within the array and collects the hosts of the filter. -/
theorem scanTasks_eq (bpf : String) (tasks : List TaskConfig) :
    scanTasks bpf tasks = some (.of bpf (excludedHosts tasks)) := by
  have hhosts : (tasks.flatMap TaskConfig.outputs).filterMap outputForwardHost =
      forwardHosts tasks := filterMap_flatMap
  rw [scanTasks, foldlM_scanTask, excludedHosts, ← hhosts]
  exact foldlM_scanOutput _ (by rw [maxHosts_eq, length_nil, Nat.zero_add])

/-! ## The second pass -/

/-- The block and the place of the next print.
Source: `bpf_filter_exclude_task_output_hosts` (`output`, `out_ptr`) -/
structure Cursor where
  output : List UInt8
  outPtr : ℕ

/-- `out_ptr += sprintf(out_ptr, ..)`: the text and its terminator are written, and the place moves
to the terminator. -/
def Cursor.sprintf (c : Cursor) (text : String) : Option Cursor :=
  if c.outPtr + strlen text + 1 ≤ c.output.length then
    some ⟨patch c.output c.outPtr (cBytes text ++ [0]), c.outPtr + strlen text⟩
  else none

/-- Source: `bpf_filter_exclude_task_output_hosts` -/
def printHostsAt (c : Cursor) (isFirst : Bool) : List String → Option Cursor
  | [] => some c
  | host :: hosts => do
    let c ← c.sprintf ((if isFirst then "" else " and ") ++ "not host " ++ host)
    printHostsAt c false hosts

/-- The user's filter and the hosts are printed.
Source: `bpf_filter_exclude_task_output_hosts` -/
def printClausesAt (bpf : String) (hosts : List String) (c : Cursor) : Option Cursor :=
  if bpf ≠ "" then do
    let c ← c.sprintf ("(" ++ bpf ++ ")")
    printHostsAt c false hosts
  else printHostsAt c true hosts

/-- The second pass, with the terminator at its end.
Source: `bpf_filter_exclude_task_output_hosts` -/
def printFilter (bpf : String) (hosts : List String) (block : List UInt8) :
    Option (List UInt8) := do
  let c ← printClausesAt bpf hosts ⟨block, 0⟩
  if c.outPtr < c.output.length then some (patch c.output c.outPtr [0]) else none

/-- The function on the memory it writes: the block it returns, or the text of its error. A write
outside of the array or the block ends the run with `none`.
Source: `bpf_filter_exclude_task_output_hosts` -/
def excludeTaskOutputHosts (heap : Heap) (bpf : String) (tasks : List TaskConfig) :
    Option (Except String (List UInt8)) :=
  if maxHosts tasks > 0 ∧ heap.calloc (maxHosts tasks) = false then
    some (.error "failed to allocate memory")
  else do
    let scan ← scanTasks bpf tasks
    match heap.malloc scan.bufSize with
    | none => some (.error "failed to allocate memory")
    | some block => do
      let output ← printFilter bpf scan.hosts block
      some (.ok output)

/-- `text` is printed: the block starts with it and is untouched behind the place of its
terminator. -/
structure Cursor.Prints (block : List UInt8) (text : String) (c : Cursor) : Prop where
  length_eq : c.output.length = block.length
  outPtr_eq : c.outPtr = strlen text
  take_eq : c.output.take c.outPtr = cBytes text
  drop_eq : c.output.drop (c.outPtr + 1) = block.drop (c.outPtr + 1)

theorem Cursor.prints_start (block : List UInt8) : Cursor.Prints block "" ⟨block, 0⟩ :=
  ⟨rfl, rfl, rfl, rfl⟩

/-- A text for which there is room is printed behind the others. -/
theorem Cursor.Prints.sprintf {block : List UInt8} {c : Cursor} {printed : String}
    (h : c.Prints block printed) (text : String)
    (hroom : strlen printed + strlen text + 1 ≤ block.length) :
    ∃ c', c.sprintf text = some c' ∧ c'.Prints block (printed ++ text) := by
  have hbound : c.outPtr + strlen text + 1 ≤ c.output.length := by
    rw [h.outPtr_eq, h.length_eq]
    exact hroom
  have hwritten : (cBytes text ++ [(0 : UInt8)]).length = strlen text + 1 := by
    rw [length_append, length_singleton, strlen]
  have hstart : patch c.output c.outPtr (cBytes text ++ [0]) =
      cBytes (printed ++ text) ++ (0 :: c.output.drop (c.outPtr + (strlen text + 1))) := by
    rw [patch, h.take_eq, hwritten, cBytes_append]
    simp
  have hlen : (cBytes (printed ++ text)).length = c.outPtr + strlen text := by
    rw [h.outPtr_eq, ← strlen_append, strlen]
  refine ⟨_, if_pos hbound, ?_⟩
  constructor
  · exact (length_patch hwritten (by omega)).trans h.length_eq
  · rw [strlen_append, h.outPtr_eq]
  · dsimp only
    rw [hstart, ← hlen, take_left]
  · dsimp only
    rw [hstart, ← hlen, drop_append, Nat.add_sub_cancel_left,
      drop_eq_nil_of_le (by omega),
      nil_append, drop_succ_cons, drop_zero, hlen]
    -- behind the old terminator the block was untouched, and this is further behind
    calc c.output.drop (c.outPtr + (strlen text + 1))
        = (c.output.drop (c.outPtr + 1)).drop (strlen text) := by
          rw [drop_drop]
          congr 1
          omega
      _ = block.drop (c.outPtr + strlen text + 1) := by
          rw [h.drop_eq, drop_drop]
          congr 1
          omega

theorem Cursor.Prints.terminate {block : List UInt8} {c : Cursor} {text : String}
    (h : c.Prints block text) :
    patch c.output c.outPtr [0] = patch block 0 (cBytes text ++ [0]) := by
  rw [patch, patch, h.take_eq, length_singleton, h.drop_eq, h.outPtr_eq]
  simp [strlen]

theorem strlen_clause_le (isFirst : Bool) (host : String) :
    strlen ((if isFirst then "" else " and ") ++ "not host " ++ host) ≤
      strlen host + extraSize := by
  have hextra : extraSize = strlen " and " + strlen "not host " := rfl
  have hlead : strlen (if isFirst then "" else " and ") ≤ strlen " and " := by
    cases isFirst
    · exact Nat.le_refl _
    · exact Nat.zero_le _
  rw [strlen_append, strlen_append, hextra]
  omega

/-- **The loop lemma** of the second pass. -/
theorem printHostsAt_prints {block : List UInt8} {c : Cursor} {printed : String} {isFirst : Bool}
    (hosts : List String) (h : c.Prints block printed)
    (hroom : strlen printed + clausesSize hosts + 1 ≤ block.length) :
    ∃ c', printHostsAt c isFirst hosts = some c' ∧
      c'.Prints block (printHosts printed isFirst hosts) ∧ c'.outPtr + 1 ≤ block.length := by
  induction hosts generalizing c printed isFirst with
  | nil => exact ⟨c, rfl, h, h.outPtr_eq ▸ hroom⟩
  | cons host hosts ih =>
    have hclause := strlen_clause_le isFirst host
    have hsum : clausesSize (host :: hosts) = strlen host + extraSize + clausesSize hosts := rfl
    obtain ⟨c₁, hprint, hc₁⟩ := h.sprintf
      ((if isFirst then "" else " and ") ++ "not host " ++ host) (by omega)
    obtain ⟨c', hrest, hc'⟩ := ih hc₁ (by rw [strlen_append]; omega)
    refine ⟨c', ?_, ?_⟩
    · rw [printHostsAt, hprint]
      exact hrest
    · simpa only [printHosts, String.append_assoc] using hc'

/-- The clauses are printed within the block. -/
theorem printClausesAt_prints {bpf : String} {tasks : List TaskConfig} {block : List UInt8}
    (hblock : block.length = (HostScan.of bpf (excludedHosts tasks)).bufSize) :
    ∃ c, printClausesAt bpf (excludedHosts tasks) ⟨block, 0⟩ = some c ∧
      c.Prints block (bpfFilterExcludeTaskOutputHosts bpf tasks) ∧ c.outPtr + 1 ≤ block.length := by
  have hsize : block.length = strlen bpf + 1 + 2 + clausesSize (excludedHosts tasks) := hblock
  have hempty : strlen "" = 0 := rfl
  unfold printClausesAt bpfFilterExcludeTaskOutputHosts
  by_cases hbpf : bpf ≠ ""
  · have huser : strlen ("(" ++ bpf ++ ")") = strlen bpf + 2 := by
      rw [strlen_append, strlen_append, Nat.add_right_comm]
      exact Nat.add_comm _ _
    obtain ⟨c, hprint, hc⟩ := (Cursor.prints_start block).sprintf ("(" ++ bpf ++ ")") (by omega)
    rw [String.empty_append] at hc
    rw [if_pos hbpf, if_pos hbpf, hprint]
    exact printHostsAt_prints _ hc (by omega)
  · rw [if_neg hbpf, if_neg hbpf]
    exact printHostsAt_prints _ (Cursor.prints_start block) (by omega)

/-- **The second pass** stays within the block and leaves the text with its terminator in it. -/
theorem printFilter_eq {bpf : String} {tasks : List TaskConfig} {block : List UInt8}
    (hblock : block.length = (HostScan.of bpf (excludedHosts tasks)).bufSize) :
    printFilter bpf (excludedHosts tasks) block =
      some (patch block 0 (cBytes (bpfFilterExcludeTaskOutputHosts bpf tasks) ++ [0])) ∧
      strlen (bpfFilterExcludeTaskOutputHosts bpf tasks) + 1 ≤ block.length := by
  obtain ⟨c, hrun, hc, hroom⟩ := printClausesAt_prints hblock
  refine ⟨?_, hc.outPtr_eq ▸ hroom⟩
  rw [printFilter, hrun, ← hc.terminate]
  exact if_pos (hc.length_eq ▸ hroom)

/-! ## Both passes -/

theorem nodup_addHost {hosts : List String} (h : hosts.Nodup) (host : String) :
    (addHost hosts host).Nodup := by
  unfold addHost
  split_ifs with hseen
  · exact h
  · have hnew : host ∉ hosts := by simpa using hseen
    exact nodup_append.mpr ⟨h, nodup_singleton host, by
      intro a ha b hb
      rw [mem_singleton.mp hb]
      rintro rfl
      exact hnew ha⟩

theorem nodup_excludedHosts (tasks : List TaskConfig) : (excludedHosts tasks).Nodup := by
  suffices h : ∀ hosts : List String, hosts.Nodup → ((forwardHosts tasks).foldl addHost hosts).Nodup
    from h [] nodup_nil
  induction forwardHosts tasks with
  | nil => exact fun _ hhosts => hhosts
  | cons host rest ih => exact fun hosts hhosts => ih _ (nodup_addHost hhosts host)

theorem foldl_addHost_eq (hosts : List String) : hosts.foldl addHost [] = hosts.eraseDups := by
  induction hosts using List.reverseRecOn with
  | nil => rfl
  | append_singleton hosts host ih =>
    have hseen : hosts.eraseDups.any (fun h => h = host) = decide (host ∈ hosts) := by
      simp [any_eq]
    rw [foldl_append, ih, eraseDups_append, foldl_cons, foldl_nil, addHost, hseen]
    by_cases hmem : host ∈ hosts
    · simp [List.removeAll, hmem]
    · simp [List.removeAll, hmem, eraseDups_cons]

/-- **The exclusion filter.** No write is outside of the array of hosts or the block, and the text
is the user's filter in parentheses and a clause for each forward host, once each and joined by `
and `. -/
theorem exclusion_filter_correct (heap : Heap) (bpf : String) (tasks : List TaskConfig) :
    ∃ (text : String) (hosts : List String) (bufSize : ℕ),
      scanTasks bpf tasks = some ⟨hosts, bufSize⟩ ∧
      hosts = (forwardHosts tasks).eraseDups ∧ hosts.Nodup ∧
      (∀ host, host ∈ hosts ↔
        ∃ task ∈ tasks, ∃ output ∈ task.outputs, outputForwardHost output = some host) ∧
      text = String.intercalate " and "
        ((if bpf ≠ "" then ["(" ++ bpf ++ ")"] else []) ++ hosts.map ("not host " ++ ·)) ∧
      (bpf = "" → hosts = [] → text = "") ∧
      strlen text + 1 ≤ bufSize ∧
      excludeTaskOutputHosts heap bpf tasks = some
        (if maxHosts tasks > 0 ∧ heap.calloc (maxHosts tasks) = false then
          .error "failed to allocate memory"
        else (heap.malloc bufSize).elim (.error "failed to allocate memory") fun block =>
          .ok (patch block 0 (cBytes text ++ [0]))) := by
  have hfit : strlen (bpfFilterExcludeTaskOutputHosts bpf tasks) + 1 ≤
      (HostScan.of bpf (excludedHosts tasks)).bufSize := by
    have hrep := length_replicate (n := (HostScan.of bpf (excludedHosts tasks)).bufSize)
      (a := (0 : UInt8))
    exact hrep ▸ (printFilter_eq hrep).2
  refine ⟨bpfFilterExcludeTaskOutputHosts bpf tasks, excludedHosts tasks,
    (HostScan.of bpf (excludedHosts tasks)).bufSize, scanTasks_eq bpf tasks, foldl_addHost_eq _,
    nodup_excludedHosts tasks, ?_, bpfFilterExcludeTaskOutputHosts_eq bpf tasks, ?_, hfit,
    ?_⟩
  · intro host
    rw [mem_excludedHosts, forwardHosts]
    simp only [mem_flatMap, mem_filterMap]
  · intro hbpf hhosts
    rw [bpfFilterExcludeTaskOutputHosts, if_neg (not_not.mpr hbpf), hhosts, printHosts]
  · unfold excludeTaskOutputHosts
    split_ifs with hcalloc
    · rfl
    · rw [scanTasks_eq]
      dsimp only [Option.bind_some, bind]
      cases hblock : heap.malloc (HostScan.of bpf (excludedHosts tasks)).bufSize with
      | none => rfl
      | some block =>
        have hprint := (printFilter_eq (heap.length_malloc _ block hblock)).1
        exact congrArg (Option.bind · fun output => some (Except.ok output)) hprint

def zeroHeap : Heap where
  calloc _ := true
  malloc size := some (List.replicate size 0)
  length_malloc size block h := by
    obtain rfl := Option.some.inj h
    exact length_replicate

/-- Two tasks that forward to the same host: the host is excluded once. -/
theorem exclusion_filter_correct_same_host :
    let tasks : List TaskConfig := [⟨none, .libpcap "tcp" false, [.vxlan "10.0.0.1"]⟩,
      ⟨none, .libpcap "" false, [.null, .gre "10.0.0.1"]⟩]
    ∃ block, excludeTaskOutputHosts zeroHeap "tcp" tasks = some (.ok block) ∧
      cBytes "(tcp) and not host 10.0.0.1" ++ [0] <+: block := by
  intro tasks
  obtain ⟨text, hosts, bufSize, -, hhosts, -, -, htext, -, -, hrun⟩ :=
    exclusion_filter_correct zeroHeap "tcp" tasks
  have hplain : text = "(tcp) and not host 10.0.0.1" := by
    rw [htext, hhosts]
    decide +kernel
  refine ⟨_, hrun.trans (congrArg some (if_neg (by simp [zeroHeap]))), ?_⟩
  rw [← hplain]
  exact prefix_append _ _

end CloudProbe.Worker
