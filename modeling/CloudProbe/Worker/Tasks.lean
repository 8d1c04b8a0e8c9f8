import CloudProbe.Lib.Keyed
import CloudProbe.Worker.Config

/-!
# Tasks and task lists

A capture task is what `capture_task_new` allocates; `id` is its identity. A `Task` is a wrapper
that refers to a capture task, so that two lists can hold wrappers of one during a reload.
Allocations and the opening of a capturer can fail; their results are arguments.

Sources without a file are in `task.c`.
-/

namespace CloudProbe.Worker

open CloudProbe.Lib Option

/-- A capture task: its identity, the entry it was created from, and the task list of the
configuration at that time.
Source: `task.h` `capture_task_t` -/
structure CaptureTask where
  id : ℕ
  config : TaskConfig
  createdUnder : List TaskConfig
deriving DecidableEq

/-- The filter the capturer was opened with. It is set once, when the task is created.
Source: `capture_task_new`, `libpcap.c` `libpcap_capture_new_from_cfg` -/
def CaptureTask.filter (t : CaptureTask) : BpfFilter :=
  captureFilter t.createdUnder t.config.capturer

/-- The capture task created for an entry of a task list, when opening succeeds.
Source: `capture_task_new` -/
def captureTaskNew (id : ℕ) (tasks : List TaskConfig) (task : TaskConfig) : CaptureTask where
  id := id
  config := task
  createdUnder := tasks

/-- Source: `task_t` -/
structure Task where
  index : ℕ
  fingerprint : Option String
  task : CaptureTask
deriving DecidableEq

/-- A record of a task that could not be created.
Source: `task_error_t` -/
structure TaskError where
  index : ℕ
  fingerprint : Option String
  errbuf : String
deriving DecidableEq

def captureTasks (tasks : List Task) : List CaptureTask := tasks.map Task.task

/-- Source: `find_task_by_fingerprint` -/
def findTaskByFingerprint (fingerprint : String) (tasks : List Task) : Option Task :=
  findKey Task.fingerprint fingerprint tasks

/-- The lookup of an entry; an entry without fingerprint finds nothing. -/
def findEntry (task : TaskConfig) (tasks : List Task) : Option Task :=
  task.fingerprint.bind fun fp => findTaskByFingerprint fp tasks

/-- Source: `validate_fingerprints` -/
def validateFingerprints (tasks : List TaskConfig) : Bool :=
  tasks.all fun task => task.fingerprint.isSome

/-- The tasks that go on, as new wrappers in the order of the new configuration; `alloc i` is the
result of allocating the wrapper for entry `i`.
Source: `collect_surviving_tasks` -/
def collectSurvivingTasks (alloc : ℕ → Bool) (currentTasks : List Task) :
    ℕ → List TaskConfig → Option (List Task)
  | _, [] => some []
  | i, task :: rest =>
    match findEntry task currentTasks with
    | some existing =>
      if alloc i then
        (collectSurvivingTasks alloc currentTasks (i + 1) rest).map fun tasks =>
          { index := existing.index, fingerprint := existing.fingerprint,
            task := existing.task } :: tasks
      else none
    | none => collectSurvivingTasks alloc currentTasks (i + 1) rest

/-- The tasks that go on, when no allocation fails. -/
def survivingTasks (currentTasks : List Task) (config : List TaskConfig) : List Task :=
  config.filterMap fun task => findEntry task currentTasks

/-- What the loop of `build_full_task_set` does not control in one round: the result of
`capture_task_new`, and whether the wrapper or the error record can be allocated. -/
structure EntryOutcome where
  create : Except String Unit
  nodeOk : Bool

/-- The result of one round. -/
inductive EntryResult where
  /-- a wrapper is appended; `created` is its capture task if it is new -/
  | task (created : Option CaptureTask) (t : Task)
  /-- an error record is appended -/
  | error (e : TaskError)
  /-- `goto error`; `created` was created and is destroyed again -/
  | abort (created : Option CaptureTask)

/-- One round of the loop: entry `i`, with `id` the identity of the next capture task.
Source: `build_full_task_set` -/
def buildEntry (id : ℕ) (config : List TaskConfig) (currentTasks : List Task) (i : ℕ)
    (task : TaskConfig) (outcome : EntryOutcome) : EntryResult :=
  match findEntry task currentTasks with
  | some existing =>
    if outcome.nodeOk then .task none ⟨i, task.fingerprint, existing.task⟩ else .abort none
  | none =>
    match outcome.create with
    | .error errbuf =>
      if outcome.nodeOk then .error ⟨i, task.fingerprint, errbuf⟩ else .abort none
    | .ok () =>
      let created := captureTaskNew id config task
      if outcome.nodeOk then .task (some created) ⟨i, task.fingerprint, created⟩
      else .abort (some created)

/-- An old task is destroyed when it has no fingerprint or a new task list does not have it.
Source: `reclaim_old_resources` -/
def unusedIn (newTasks : List Task) (item : Task) : Bool :=
  match item.fingerprint with
  | some fp => (findTaskByFingerprint fp newTasks).isNone
  | none => true

/-- The first loop over the tasks, when the worker starts: entry `i` gets the identity `i`.
Source: `task_manager_new` -/
def taskManagerNew (config : List TaskConfig) (create : ℕ → Except String Unit) :
    ℕ → List TaskConfig → List Task × List TaskError
  | _, [] => ([], [])
  | i, task :: rest =>
    let (tasks, errors) := taskManagerNew config create (i + 1) rest
    match create i with
    | .error errbuf => (tasks, ⟨i, task.fingerprint, errbuf⟩ :: errors)
    | .ok () => (⟨i, task.fingerprint, captureTaskNew i config task⟩ :: tasks, errors)

/-! ### Planning -/

variable {currentTasks tasks : List Task} {config : List TaskConfig} {t : Task} {fp : String}

theorem collectSurvivingTasks_eq {alloc : ℕ → Bool} {i : ℕ}
    (h : collectSurvivingTasks alloc currentTasks i config = some tasks) :
    tasks = survivingTasks currentTasks config := by
  induction config generalizing i tasks with
  | nil =>
    cases h
    rfl
  | cons task rest ih =>
    unfold collectSurvivingTasks at h
    cases hfind : findEntry task currentTasks with
    | none =>
      simp only [hfind] at h
      rw [ih h]
      simp [survivingTasks, hfind]
    | some existing =>
      simp only [hfind] at h
      split_ifs at h with halloc
      obtain ⟨tasks', htasks', rfl⟩ := map_eq_some_iff.mp h
      rw [ih htasks']
      simp [survivingTasks, hfind]

theorem findEntry_some {task : TaskConfig} (h : findEntry task tasks = some t) :
    t ∈ tasks ∧ t.fingerprint = task.fingerprint ∧ t.fingerprint.isSome := by
  obtain ⟨fp, hfp, hfind⟩ := bind_eq_some_iff.mp h
  obtain ⟨hmem, hkey⟩ := findKey_some hfind
  exact ⟨hmem, hkey.trans hfp.symm, by rw [hkey]; rfl⟩

theorem findEntry_none {task : TaskConfig} (h : findEntry task tasks = none)
    (hfp : task.fingerprint = some fp) : fp ∉ keys Task.fingerprint tasks := by
  rw [findEntry, hfp, bind_some] at h
  exact findKey_eq_none.mp h

theorem mem_of_mem_survivingTasks (h : t ∈ survivingTasks currentTasks config) :
    t ∈ currentTasks ∧ ∃ task ∈ config, t.fingerprint = task.fingerprint ∧
      t.fingerprint.isSome := by
  obtain ⟨task, htask, hfind⟩ := List.mem_filterMap.mp h
  obtain ⟨hmem, hkey, hsome⟩ := findEntry_some hfind
  exact ⟨hmem, task, htask, hkey, hsome⟩

theorem mem_survivingTasks (hcur : (keys Task.fingerprint currentTasks).Nodup)
    (ht : t ∈ currentTasks) (hfp : t.fingerprint = some fp)
    (hmem : fp ∈ config.filterMap TaskConfig.fingerprint) :
    t ∈ survivingTasks currentTasks config := by
  obtain ⟨task, htask, hkey⟩ := List.mem_filterMap.mp hmem
  refine List.mem_filterMap.mpr ⟨task, htask, ?_⟩
  rw [findEntry, hkey, bind_some]
  exact findKey_of_mem hcur ht hfp

/-! ### Reclaiming -/

theorem unusedIn_eq (newTasks : List Task) (item : Task) :
    unusedIn newTasks item = !keyIn Task.fingerprint newTasks item := by
  unfold unusedIn keyIn findTaskByFingerprint
  cases item.fingerprint with
  | none => rfl
  | some fp => simp

/-! ### Building -/

/-- What `build_full_task_set` has put together after `i` entries: each has a wrapper or an error
record, both in the order of the configuration; a wrapper holds the old capture task with its
fingerprint, or a new one when there is none; `created` are the new ones. -/
structure Built (config : List TaskConfig) (old : List Task) (created : List CaptureTask) (i : ℕ)
    (tasks : List Task) (errors : List TaskError) : Prop where
  tasks_lt : ∀ t ∈ tasks, t.index < i
  tasks_sorted : tasks.Pairwise fun t t' => t.index < t'.index
  errors_lt : ∀ e ∈ errors, e.index < i
  errors_sorted : errors.Pairwise fun e e' => e.index < e'.index
  once : ∀ j < i, Xor (∃ t ∈ tasks, t.index = j) (∃ e ∈ errors, e.index = j)
  task_entry : ∀ t ∈ tasks, ∃ entry, config[t.index]? = some entry ∧
    t.fingerprint = entry.fingerprint ∧
    ((∃ o, findEntry entry old = some o ∧ t.task = o.task) ∨
      (findEntry entry old = none ∧ ∃ id, t.task = captureTaskNew id config entry))
  error_entry : ∀ e ∈ errors, ∃ entry, config[e.index]? = some entry ∧
    e.fingerprint = entry.fingerprint ∧ findEntry entry old = none
  created_eq : created = captureTasks (tasks.filter fun t => !keyIn Task.fingerprint old t)

variable {config : List TaskConfig} {old tasks : List Task} {created : List CaptureTask} {i : ℕ}
  {errors : List TaskError} {entry : TaskConfig}

theorem Built.zero (config : List TaskConfig) (old : List Task) : Built config old [] 0 [] [] where
  tasks_lt := by simp
  tasks_sorted := List.Pairwise.nil
  errors_lt := by simp
  errors_sorted := List.Pairwise.nil
  once := by intro j hj; cases hj
  task_entry := by simp
  error_entry := by simp
  created_eq := rfl

/-- A round that leaves a wrapper. -/
theorem Built.snoc_task (h : Built config old created i tasks errors) {new : List CaptureTask}
    (hindex : t.index = i) (hentry : config[i]? = some entry)
    (hfp : t.fingerprint = entry.fingerprint)
    (htask : (∃ o, findEntry entry old = some o ∧ t.task = o.task) ∨
      (findEntry entry old = none ∧ ∃ id, t.task = captureTaskNew id config entry))
    (hnew : new = captureTasks ([t].filter fun t => !keyIn Task.fingerprint old t)) :
    Built config old (created ++ new) (i + 1) (tasks ++ [t]) errors where
  tasks_lt := by
    intro t' ht'
    rcases List.mem_append.mp ht' with ht' | ht'
    · have := h.tasks_lt t' ht'
      omega
    · rw [List.mem_singleton.mp ht', hindex]
      exact Nat.lt_succ_self i
  tasks_sorted := by
    refine List.pairwise_append.mpr ⟨h.tasks_sorted, List.pairwise_singleton _ _, ?_⟩
    intro a ha b hb
    rw [List.mem_singleton.mp hb, hindex]
    exact h.tasks_lt a ha
  errors_lt := by
    intro e he
    have := h.errors_lt e he
    omega
  errors_sorted := h.errors_sorted
  once := by
    intro j hj
    rcases Nat.lt_succ_iff_lt_or_eq.mp hj with hj | rfl
    · have hne : t.index ≠ j := by omega
      simpa [or_and_right, exists_or, hne] using h.once j hj
    · refine Or.inl ⟨⟨t, by simp, hindex⟩, ?_⟩
      rintro ⟨e, he, hej⟩
      exact absurd (h.errors_lt e he) (by omega)
  task_entry := by
    intro t' ht'
    rcases List.mem_append.mp ht' with ht' | ht'
    · exact h.task_entry t' ht'
    · rw [List.mem_singleton.mp ht', hindex]
      exact ⟨entry, hentry, hfp, htask⟩
  error_entry := h.error_entry
  created_eq := by
    rw [h.created_eq, hnew, captureTasks, captureTasks, captureTasks, List.filter_append,
      List.map_append]

/-- A round that leaves an error record. -/
theorem Built.snoc_error (h : Built config old created i tasks errors) {e : TaskError}
    (hindex : e.index = i) (hentry : config[i]? = some entry)
    (hfp : e.fingerprint = entry.fingerprint) (hnone : findEntry entry old = none) :
    Built config old created (i + 1) tasks (errors ++ [e]) where
  tasks_lt := by
    intro t ht
    have := h.tasks_lt t ht
    omega
  tasks_sorted := h.tasks_sorted
  errors_lt := by
    intro e' he'
    rcases List.mem_append.mp he' with he' | he'
    · have := h.errors_lt e' he'
      omega
    · rw [List.mem_singleton.mp he', hindex]
      exact Nat.lt_succ_self i
  errors_sorted := by
    refine List.pairwise_append.mpr ⟨h.errors_sorted, List.pairwise_singleton _ _, ?_⟩
    intro a ha b hb
    rw [List.mem_singleton.mp hb, hindex]
    exact h.errors_lt a ha
  once := by
    intro j hj
    rcases Nat.lt_succ_iff_lt_or_eq.mp hj with hj | rfl
    · have hne : e.index ≠ j := by omega
      simpa [or_and_right, exists_or, hne] using h.once j hj
    · refine Or.inr ⟨⟨e, by simp, hindex⟩, ?_⟩
      rintro ⟨t, ht, htj⟩
      exact absurd (h.tasks_lt t ht) (by omega)
  task_entry := h.task_entry
  error_entry := by
    intro e' he'
    rcases List.mem_append.mp he' with he' | he'
    · exact h.error_entry e' he'
    · rw [List.mem_singleton.mp he', hindex]
      exact ⟨entry, hentry, hfp, hnone⟩
  created_eq := h.created_eq

theorem keyIn_eq_findEntry (hfp : t.fingerprint = entry.fingerprint) :
    keyIn Task.fingerprint old t = (findEntry entry old).isSome := by
  unfold keyIn findEntry findTaskByFingerprint
  rw [hfp]
  cases entry.fingerprint <;> rfl

/-- **The step lemma** of the loop. -/
theorem Built.round (h : Built config old created i tasks errors) (hentry : config[i]? = some entry)
    (id : ℕ) (outcome : EntryOutcome) :
    match buildEntry id config old i entry outcome with
    | .task new t => Built config old (created ++ new.toList) (i + 1) (tasks ++ [t]) errors
    | .error e => Built config old created (i + 1) tasks (errors ++ [e])
    | .abort _ => True := by
  unfold buildEntry
  cases hfind : findEntry entry old with
  | some o =>
    simp only
    by_cases hok : outcome.nodeOk = true
    · simp only [hok, if_true]
      refine h.snoc_task rfl hentry rfl (Or.inl ⟨o, hfind, rfl⟩) ?_
      simp [captureTasks, keyIn_eq_findEntry (t := ⟨i, entry.fingerprint, o.task⟩) rfl, hfind]
    · simp [hok]
  | none =>
    simp only
    cases outcome.create with
    | error errbuf =>
      by_cases hok : outcome.nodeOk = true
      · simp only [hok, if_true]
        exact h.snoc_error rfl hentry rfl hfind
      · simp [hok]
    | ok _ =>
      by_cases hok : outcome.nodeOk = true
      · simp only [hok, if_true]
        refine h.snoc_task rfl hentry rfl (Or.inr ⟨hfind, id, rfl⟩) ?_
        simp [captureTasks, keyIn_eq_findEntry
          (t := ⟨i, entry.fingerprint, captureTaskNew id config entry⟩) rfl, hfind]
      · simp [hok]

theorem Built.keys_nodup (h : Built config old created i tasks errors)
    (hconfig : (keys TaskConfig.fingerprint config).Nodup) :
    (keys Task.fingerprint tasks).Nodup := by
  unfold keys
  rw [List.Nodup, List.pairwise_filterMap]
  refine h.tasks_sorted.imp_of_mem ?_
  intro t t' ht ht' hlt fp hfp fp' hfp' heq
  subst heq
  obtain ⟨entry, hentry, hkey, -⟩ := h.task_entry t ht
  obtain ⟨entry', hentry', hkey', -⟩ := h.task_entry t' ht'
  have := index_eq_of_key_eq hconfig hentry hentry' (hkey.symm.trans hfp) (hkey'.symm.trans hfp')
  omega

theorem Built.task_eq (h : Built config old created i tasks errors)
    (hold : (keys Task.fingerprint old).Nodup) {o : Task} (ht : t ∈ tasks) (ho : o ∈ old)
    (hofp : o.fingerprint = some fp) (htfp : t.fingerprint = some fp) :
    t.task = o.task := by
  obtain ⟨entry, -, hkey, hcase⟩ := h.task_entry t ht
  have hfind : findEntry entry old = some o := by
    rw [findEntry, ← hkey, htfp, bind_some]
    exact findKey_of_mem hold ho hofp
  rcases hcase with ⟨o', ho', htask⟩ | ⟨hnone, -⟩
  · rw [hfind] at ho'
    rw [htask, some.inj ho']
  · rw [hfind] at hnone
    cases hnone

theorem Built.perm (h : Built config old created i tasks errors)
    (hconfig : (keys TaskConfig.fingerprint config).Nodup)
    (hold : (keys Task.fingerprint old).Nodup) :
    (captureTasks tasks ++ captureTasks (old.filter (unusedIn tasks))).Perm
      (captureTasks old ++ created) := by
  have hunused : unusedIn tasks = fun o => !keyIn Task.fingerprint tasks o :=
    funext (unusedIn_eq tasks)
  rw [h.created_eq, hunused]
  exact perm_exchange hold (h.keys_nodup hconfig)
    fun t ht o ho fp hofp htfp => h.task_eq hold ht ho hofp htfp

/-! ### The first task list -/

/-- The tasks of the first loop: identities in order, fingerprints of the configuration. -/
theorem taskManagerNew_spec (config : List TaskConfig) (create : ℕ → Except String Unit) (i : ℕ)
    (entries : List TaskConfig) :
    (∀ t ∈ (taskManagerNew config create i entries).1,
        i ≤ t.task.id ∧ t.task.id < i + entries.length) ∧
      ((taskManagerNew config create i entries).1.Pairwise fun t t' => t.task.id < t'.task.id) ∧
      (keys Task.fingerprint (taskManagerNew config create i entries).1).Sublist
        (keys TaskConfig.fingerprint entries) := by
  induction entries generalizing i with
  | nil => exact ⟨by simp [taskManagerNew], List.Pairwise.nil, List.Sublist.refl _⟩
  | cons entry rest ih =>
    obtain ⟨hid, hsorted, hsub⟩ := ih (i + 1)
    have hsub' : (keys TaskConfig.fingerprint rest).Sublist
        (keys TaskConfig.fingerprint (entry :: rest)) :=
      (List.sublist_cons_self entry rest).filterMap _
    unfold taskManagerNew
    cases create i with
    | error errbuf =>
      refine ⟨?_, hsorted, hsub.trans hsub'⟩
      intro t ht
      have := hid t ht
      rw [List.length_cons]
      omega
    | ok _ =>
      refine ⟨?_, ?_, ?_⟩
      · intro t ht
        rw [List.length_cons]
        rcases List.mem_cons.mp ht with rfl | ht
        · simp only [captureTaskNew]
          omega
        · have := hid t ht
          omega
      · refine List.pairwise_cons.mpr ⟨?_, hsorted⟩
        intro t ht
        have := (hid t ht).1
        simp only [captureTaskNew]
        omega
      · unfold keys
        rw [List.filterMap_cons, List.filterMap_cons]
        cases entry.fingerprint with
        | none => exact hsub
        | some fp => exact hsub.cons_cons fp

end CloudProbe.Worker
