import CloudProbe.Daemon.ConfigAccepted
import CloudProbe.Worker.Tasks

/-!
# The ring estimate of a reload

Before a reload the daemon asks for the memory of the rings that the worker will open. It takes the
tasks whose fingerprint is not among those that run; the worker looks each fingerprint up in its
list of tasks and creates a capture task when it finds none (`buildRounds`, over the rounds
`Worker.buildEntry` of `build_full_task_set`).
-/

namespace CloudProbe.Daemon

open Lib Option
open CloudProbe.Worker (EntryOutcome EntryResult Json buildEntry findEntry)

/-- A task of the file, as the daemon wrote it and as the worker read it. -/
structure FileTask where
  written : TaskConfig
  read : Worker.TaskConfig
  fingerprint_eq : read.fingerprint = written.fingerprint

/-- The worker finds the fingerprint of the task in its list.
Source: `task.c` `find_task_by_fingerprint` -/
def FileTask.found (task : FileTask) (tasks : List Worker.Task) : Bool :=
  (findEntry task.read tasks).isSome

/-- The task list of a worker that runs exactly the tasks. -/
abbrev Running (current : List TaskConfig) : Type :=
  { tasks : List Worker.Task //
    ∀ fp, fp ∈ keys Worker.Task.fingerprint tasks ↔ fp ∈ keys TaskConfig.fingerprint current }

structure Rounds where
  created : List FileTask
  reused : List FileTask

/-- `goto error`. -/
def aborts : EntryResult → Bool
  | .abort _ => true
  | _ => false

/-- Whether the round called `capture_task_new`. One that was given up without a capture task called
it when there was none to reuse. -/
def tries (currentTasks : List Worker.Task) (task : Worker.TaskConfig) : EntryResult → Bool
  | .task created _ => created.isSome
  | .error _ => true
  | .abort created => created.isSome || (findEntry task currentTasks).isNone

/-- The rounds of the loop from task `i` on; `ids` are the identities of new capture tasks.
Source: `task.c` `build_full_task_set` -/
def buildRounds (ids : ℕ → ℕ) (config : List Worker.TaskConfig) (currentTasks : List Worker.Task)
    (outcomes : ℕ → EntryOutcome) : ℕ → List FileTask → Rounds
  | _, [] => ⟨[], []⟩
  | i, task :: rest =>
    let result := buildEntry (ids i) config currentTasks i task.read (outcomes i)
    let further : Rounds :=
      if aborts result then ⟨[], []⟩
      else buildRounds ids config currentTasks outcomes (i + 1) rest
    if tries currentTasks task.read result then
      { further with created := task :: further.created }
    else { further with reused := task :: further.reused }

/-- The ring that a task of the file asks for, in MB, with the default of the worker.
Source: `config.c` `parse_capturer_config`, without the cut to what an `int` counts in bytes -/
def fileRingMb (task : Json) : ℕ :=
  match task.get "capturer" with
  | none => 0
  | some capturer =>
    match capturer.get "type", (capturer.get "libpcap").bind (·.get "buffer_size_mb") with
    | some (.string type), size =>
      if type = "libpcap" then
        match size with
        | some (.number mb) => ⌊mb⌋.toNat
        | _ => 256
      else 0
    | _, _ => 0

section round

variable (ids : ℕ → ℕ) (config : List Worker.TaskConfig) (currentTasks : List Worker.Task)

theorem tries_buildEntry (id i : ℕ) (task : Worker.TaskConfig) (outcome : EntryOutcome) :
    tries currentTasks task (buildEntry id config currentTasks i task outcome) =
      (findEntry task currentTasks).isNone := by
  obtain ⟨create, nodeOk⟩ := outcome
  unfold buildEntry
  cases hfind : findEntry task currentTasks <;> cases create <;> cases nodeOk <;>
    simp [tries, hfind]

theorem aborts_buildEntry (id i : ℕ) (task : Worker.TaskConfig) (outcome : EntryOutcome) :
    aborts (buildEntry id config currentTasks i task outcome) = !outcome.nodeOk := by
  obtain ⟨create, nodeOk⟩ := outcome
  unfold buildEntry
  cases findEntry task currentTasks <;> cases create <;> cases nodeOk <;> rfl

theorem buildRounds_cons (outcomes : ℕ → EntryOutcome) (i : ℕ) (task : FileTask)
    (rest : List FileTask) :
    buildRounds ids config currentTasks outcomes i (task :: rest) =
      let further := if (outcomes i).nodeOk then
        buildRounds ids config currentTasks outcomes (i + 1) rest else ⟨[], []⟩
      if task.found currentTasks then { further with reused := task :: further.reused }
      else { further with created := task :: further.created } := by
  rw [buildRounds, tries_buildEntry, aborts_buildEntry, FileTask.found]
  cases findEntry task.read currentTasks <;> cases (outcomes i).nodeOk <;> rfl

theorem buildRounds_complete (create : ℕ → Except String Unit) (i : ℕ) (file : List FileTask) :
    (buildRounds ids config currentTasks (fun i => ⟨create i, true⟩) i file).created =
        file.filter (fun task => !task.found currentTasks) ∧
      (buildRounds ids config currentTasks (fun i => ⟨create i, true⟩) i file).reused =
        file.filter (fun task => task.found currentTasks) := by
  induction file generalizing i with
  | nil => exact ⟨rfl, rfl⟩
  | cons task rest ih =>
    obtain ⟨hcreated, hreused⟩ := ih (i + 1)
    rw [buildRounds_cons]
    by_cases hfound : task.found currentTasks = true
    all_goals simp [hfound, hcreated, hreused]

theorem buildRounds_prefix (create : ℕ → Except String Unit) (outcomes : ℕ → EntryOutcome) (i : ℕ)
    (file : List FileTask) :
    (buildRounds ids config currentTasks outcomes i file).created <+:
      (buildRounds ids config currentTasks (fun i => ⟨create i, true⟩) i file).created := by
  induction file generalizing i with
  | nil => exact List.prefix_rfl
  | cons task rest ih =>
    rw [buildRounds_cons, buildRounds_cons]
    by_cases hfound : task.found currentTasks = true
    all_goals
      cases hnode : (outcomes i).nodeOk
      · simp [hfound]
      · simpa [hfound] using ih (i + 1)

end round

variable {current : List TaskConfig}

theorem Running.found_eq (tasks : Running current) (task : FileTask) :
    (task.written.fingerprint.all fun fp =>
      decide (fp ∉ current.filterMap TaskConfig.fingerprint)) = !task.found tasks := by
  rw [FileTask.found, findEntry, task.fingerprint_eq]
  cases task.written.fingerprint with
  | none => rfl
  | some fp =>
    have hfound : (findKey Worker.Task.fingerprint fp tasks.1).isSome = true ↔
      fp ∈ keys TaskConfig.fingerprint current := findKey_isSome.trans (tasks.2 fp)
    rw [bind_some, Worker.findTaskByFingerprint, Bool.eq_iff_iff, Bool.not_eq_true',
      ← Bool.not_eq_true, hfound, keys]
    simp

/-! ## The estimate -/

/-- The rings of a file are those of its parts. -/
theorem ringCfgMb_filter_add (p : FileTask → Bool) (file : List FileTask) :
    ringCfgMb (file.map FileTask.written) =
      ringCfgMb ((file.filter fun task => !p task).map FileTask.written) +
        ringCfgMb ((file.filter p).map FileTask.written) := by
  unfold ringCfgMb
  induction file with
  | nil => rfl
  | cons task file ih =>
    rw [List.map_cons, List.map_cons, List.sum_cons, ih]
    by_cases hp : p task = true
    · simp only [hp, List.filter_cons, Bool.not_true, Bool.false_eq_true, if_true, if_false,
        List.map_cons, List.sum_cons]
      ac_rfl
    · simp only [hp, List.filter_cons, Bool.not_false, Bool.false_eq_true, if_true, if_false,
        List.map_cons, List.sum_cons]
      ac_rfl

theorem newRingCfgMb_eq (tasks : Running current) (file : List FileTask) :
    newRingCfgMb current (file.map FileTask.written) =
      ringCfgMb ((file.filter fun task => !task.found tasks).map FileTask.written) := by
  rw [newRingCfgMb, List.filter_map]
  congr 3
  funext task
  exact tasks.found_eq task

/-- The task of `current` that runs in place of a task of the file. -/
def FileTask.running (current : List TaskConfig) (task : FileTask) : Option TaskConfig :=
  task.written.fingerprint.bind fun fp => findKey TaskConfig.fingerprint fp current

/-- The rings of the reused tasks are those of the file when their buffers are. -/
theorem ringCfgMb_running (tasks : Running current) (file : List FileTask)
    (hsame : ∀ task ∈ file, ∀ running, task.running current = some running →
      running.ringCfgMb = task.written.ringCfgMb) :
    ringCfgMb ((file.filter (·.found tasks)).filterMap (·.running current)) =
      ringCfgMb ((file.filter (·.found tasks)).map FileTask.written) := by
  have hrunning : ∀ task ∈ file.filter (·.found tasks), ∃ running,
      task.running current = some running ∧ running.ringCfgMb = task.written.ringCfgMb := by
    intro task htask
    obtain ⟨hmem, hfound⟩ := List.mem_filter.mp htask
    have hnot := tasks.found_eq task
    rw [hfound] at hnot
    cases hfp : task.written.fingerprint with
    | none => simp [hfp] at hnot
    | some fp =>
      have hkey : fp ∈ keys TaskConfig.fingerprint current := by
        simpa [hfp, keys] using hnot
      obtain ⟨running, hfind⟩ := isSome_iff_exists.mp (findKey_isSome.mpr hkey)
      have hrun : task.running current = some running := by
        rw [FileTask.running, hfp, bind_some, hfind]
      exact ⟨running, hrun, hsame task hmem running hrun⟩
  unfold ringCfgMb
  generalize file.filter (·.found tasks) = reused at hrunning ⊢
  induction reused with
  | nil => rfl
  | cons task reused ih =>
    obtain ⟨running, hrun, hring⟩ := hrunning task List.mem_cons_self
    rw [List.filterMap_cons_some hrun, List.map_cons, List.sum_cons, List.map_cons, List.map_cons,
      List.sum_cons, hring, ih fun task htask => hrunning task (List.mem_cons_of_mem _ htask)]

/-- Below 2^53 the ring in the file is the configured one. -/
theorem fileRingMb_toJson {task : TaskConfig} (h : task.ringCfgMb.toNat < 2 ^ 53) :
    fileRingMb task.toJson = task.ringCfgMb.toNat := by
  rcases task with ⟨fingerprint, reqPattern, ⟨type, libpcap⟩, outputs⟩
  have hsize : ((libpcap.map LibpcapConfig.toJson).bind (·.get "buffer_size_mb")) =
      (libpcap.bind LibpcapConfig.bufferSizeMb).map fun size => jsonInt size.toNat := by
    cases libpcap with
    | none => rfl
    | some libpcap => simp [LibpcapConfig.toJson]
  simp only [TaskConfig.ringCfgMb] at h ⊢
  simp only [fileRingMb, TaskConfig.toJson, CapturerConfig.toJson, get_jsonFields_cons,
    get_jsonFields_nil, String.reduceEq, if_true, if_false, or_none, hsize]
  by_cases htype : type = "libpcap"
  · rw [if_pos htype] at h ⊢
    rw [if_pos htype]
    cases hmb : libpcap.bind LibpcapConfig.bufferSizeMb with
    | none => rfl
    | some mb =>
      rw [hmb, getD_some] at h
      simp only [map_some, getD_some, jsonInt]
      rw [roundDouble_of_lt (by simpa using h)]
      simp
  · rw [if_neg htype, if_neg htype]
    rfl

/-- **The estimate is what the reload opens**: the new rings are those of the tasks that
`build_full_task_set` tries to create, and all rings are these and those of the reused tasks.
Source: `cpm/worker_mgr.go` `newRingCfgMb`, `ringCfgMb`; `task.c` `build_full_task_set` -/
theorem ring_estimate_exact (current : List TaskConfig) (tasks : Running current)
    (file : List FileTask) (ids : ℕ → ℕ) (create : ℕ → Except String Unit) :
    let rounds := buildRounds ids (file.map FileTask.read) tasks
    let complete := rounds (fun i => ⟨create i, true⟩) 0 file
    newRingCfgMb current (file.map FileTask.written) =
        ringCfgMb (complete.created.map FileTask.written) ∧
      ringCfgMb (file.map FileTask.written) =
        newRingCfgMb current (file.map FileTask.written) +
          ringCfgMb (complete.reused.map FileTask.written) ∧
      ((∀ task ∈ file, ∀ running, task.running current = some running →
          running.ringCfgMb = task.written.ringCfgMb) →
        ringCfgMb (file.map FileTask.written) =
          newRingCfgMb current (file.map FileTask.written) +
            ringCfgMb (complete.reused.filterMap (·.running current))) ∧
      (newRingCfgMb current (file.map FileTask.written)).toNat =
        ringMb (complete.created.map FileTask.written) % 2 ^ 64 ∧
      (∀ task ∈ file, task.written.ringCfgMb.toNat < 2 ^ 53 →
        fileRingMb task.written.toJson = task.written.ringCfgMb.toNat) ∧
      ∀ outcomes, (rounds outcomes 0 file).created <+: complete.created := by
  intro rounds complete
  obtain ⟨hcreated, hreused⟩ : complete.created = _ ∧ complete.reused = _ :=
    buildRounds_complete ids (file.map FileTask.read) tasks create 0 file
  have hnew := newRingCfgMb_eq tasks file
  have hsum := ringCfgMb_filter_add (·.found tasks) file
  rw [← hnew] at hsum
  refine ⟨?_, ?_, fun hsame => ?_, ?_, fun task _ => fileRingMb_toJson, fun outcomes => ?_⟩
  · rw [hcreated]
    exact hnew
  · rw [hreused]
    exact hsum
  · rw [hreused, ringCfgMb_running tasks file hsame]
    exact hsum
  · rw [hcreated, hnew, toNat_ringCfgMb]
  · exact buildRounds_prefix ids _ tasks create outcomes 0 file

/-! ### One task goes on and one is new -/

def fileTask (fingerprint : String) : FileTask :=
  ⟨taggedTask none fingerprint, ⟨some fingerprint, .libpcap "" false, []⟩, rfl⟩

def runsOne : Running [taggedTask none "a"] :=
  ⟨[⟨0, some "a", Worker.captureTaskNew 0 [(fileTask "a").read] (fileTask "a").read⟩], fun fp => by
    simp [keys, taggedTask]⟩

/-- With buffers of 64 MB, a reload to `a` and `b` opens a ring of 64 MB beside the one of `a`. -/
theorem ring_estimate_exact_one_new :
    let file := [fileTask "a", fileTask "b"]
    let rounds := buildRounds id (file.map FileTask.read) runsOne (fun _ => ⟨.ok (), true⟩) 0 file
    rounds.created.map (·.read.fingerprint) = [some "b"] ∧
      ringCfgMb (rounds.created.map FileTask.written) = 64 ∧
      ringCfgMb (file.map FileTask.written) =
        64 + ringCfgMb (rounds.reused.map FileTask.written) := by
  intro file rounds
  have hestimate : newRingCfgMb [taggedTask none "a"] (file.map FileTask.written) = 64 := by
    decide +kernel
  obtain ⟨hnew, hall, -⟩ := ring_estimate_exact _ runsOne file id fun _ => .ok ()
  rw [hestimate] at hnew hall
  exact ⟨by decide +kernel, hnew.symm, hall⟩

end CloudProbe.Daemon
