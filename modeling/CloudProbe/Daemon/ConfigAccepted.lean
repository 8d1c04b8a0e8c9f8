import CloudProbe.Daemon.Budget
import CloudProbe.Daemon.FingerprintStable
import CloudProbe.Daemon.TaskAccepted
import Mathlib.Tactic.IntervalCases

/-!
# The worker accepts the configuration that the daemon writes

Two values of the file are not checked by the daemon against what the worker reads: the size of the
pipeline buffer, which may be zero when the capture buffers take the whole limit, and a log level
that only the daemon takes for one of the four.

* **When they fit** (`Readable`).
* **Agreement** (`config_accepted_iff`): the file is accepted exactly then.
-/

open CloudProbe.Worker Option

namespace CloudProbe.Daemon

/-! ## The log level -/

def upperLevels : List (List Char) := ["DEBUG", "INFO", "WARN", "ERROR"].map String.toList

variable {logLevel : String} {c : Char}

theorem mem_upperLevels (h : checkLogLevel logLevel = .ok ()) :
    logLevel.toList.map goToUpper ∈ upperLevels := by
  unfold checkLogLevel at h
  split_ifs at h with hmem
  exact List.contains_iff_mem.mp hmem

theorem notMem_level (h : checkLogLevel logLevel = .ok ())
    (hc : ∀ level ∈ upperLevels, goToUpper c ∉ level) : c ∉ logLevel.toList := fun hmem =>
  hc _ (mem_upperLevels h) (List.mem_map_of_mem hmem)

theorem cString_level (h : checkLogLevel logLevel = .ok ()) :
    cString logLevel = logLevel := by
  have hzero : '\x00' ∉ logLevel.toList := notMem_level h (by decide)
  apply cString_eq_self
  intro c hc hnat
  have hchar : c = '\x00' := Char.toNat_inj.mp hnat
  exact hzero (hchar ▸ hc)

theorem toLower_toUpper (c : Char) : c.toUpper.toLower = c.toLower := by
  by_cases hsmall : 97 ≤ c.toNat ∧ c.toNat ≤ 122
  · obtain ⟨n, hn⟩ : ∃ n, c.toNat = n := ⟨_, rfl⟩
    have hc : c = Char.ofNat n := by rw [← hn, Char.ofNat_toNat]
    rw [hn] at hsmall
    obtain ⟨hlow, hhigh⟩ := hsmall
    rw [hc]
    clear hn hc
    interval_cases n
    all_goals decide
  · have hsame : c.toUpper = c := dif_neg hsmall
    rw [hsame]

theorem toLower_goToUpper (hi : c ≠ 'ı') (hs : c ≠ 'ſ') :
    (goToUpper c).toLower = c.toLower := by
  rw [goToUpper, if_neg hi, if_neg hs]
  exact toLower_toUpper c

theorem toLower_level (h : checkLogLevel logLevel = .ok ()) (hi : 'ı' ∉ logLevel.toList) :
    logLevel.toList.map Char.toLower = (logLevel.toList.map goToUpper).map Char.toLower := by
  have hs : 'ſ' ∉ logLevel.toList := notMem_level h (by decide)
  rw [List.map_map]
  apply List.map_congr_left
  intro c hc
  exact (toLower_goToUpper (fun heq => hi (heq ▸ hc)) fun heq => hs (heq ▸ hc)).symm

/-- The worker takes every log level that was checked, but for a dotless i. -/
theorem accepted_logLevel_iff (h : checkLogLevel logLevel = .ok ()) :
    Accepted (parseLogLevel (some (.string logLevel))) ↔ 'ı' ∉ logLevel.toList := by
  unfold parseLogLevel sameIgnoringCase
  simp only [cString_level h]
  constructor
  · rintro haccepted hmem
    have hlower : 'ı' ∈ logLevel.toList.map Char.toLower :=
      List.mem_map.mpr ⟨'ı', hmem, by decide⟩
    have hplain : ∀ level ∈ ["DEBUG", "INFO", "WARN", "ERROR"],
        'ı' ∉ level.toList.map Char.toLower := by decide
    have hnone : ∀ level ∈ ["DEBUG", "INFO", "WARN", "ERROR"],
        logLevel.toList.map Char.toLower ≠ level.toList.map Char.toLower := by
      intro level hlevel heq
      exact hplain level hlevel (heq ▸ hlower)
    obtain ⟨value, hvalue⟩ := haccepted
    simp only [hnone "DEBUG" (by decide), hnone "INFO" (by decide), hnone "WARN" (by decide),
      hnone "ERROR" (by decide), decide_false, Bool.false_eq_true, if_false] at hvalue
    cases hvalue
  · intro hi
    rw [toLower_level h hi]
    have hmem := mem_upperLevels h
    simp only [upperLevels, List.map_cons, List.map_nil, List.mem_cons, List.not_mem_nil,
      or_false] at hmem
    rcases hmem with heq | heq | heq | heq
    · exact ⟨.debug, by rw [heq]; rfl⟩
    · exact ⟨.info, by rw [heq]; rfl⟩
    · exact ⟨.warn, by rw [heq]; rfl⟩
    · exact ⟨.error, by rw [heq]; rfl⟩

/-! ## The pipeline buffer -/

theorem toNat_ringCfgMb (tasks : List TaskConfig) :
    (ringCfgMb tasks).toNat = ringMb tasks % 2 ^ 64 := by
  unfold ringCfgMb ringMb
  induction tasks with
  | nil => rfl
  | cons task tasks ih =>
    rw [List.map_cons, List.sum_cons, UInt64.toNat_add, ih, List.map_cons, List.sum_cons]
    omega

section file

variable (d : Setup) (host : Host) (res : SyncStrategyResponse) (activeInstances : List String)

/-- The capture buffers of the tasks in MB, as the daemon adds them up. -/
def captureMb : ℕ :=
  numTasks d host res activeInstances *
    ((getTaskBufferSizeMb d.workerCfg.memory res activeInstances).toOption.getD 0).toNat % 2 ^ 64

def limitMb : ℕ := (res.effectiveMemLimitMb d.workerCfg.memory.defaultLimitMb).toNat

/-- **When the worker can read the file**: the log level has no dotless i; and with a pipeline, the
least buffer is not zero or the capture buffers leave something of the limit, and neither of the two
is beyond what a `size_t` counts in bytes. -/
structure Readable : Prop where
  logLevel : 'ı' ∉ d.workerCfg.logLevel.toList
  pipeline : d.workerCfg.executionModel = .pipeline →
    (0 < d.workerCfg.minBufferSizeMb.toNat ∨
      captureMb d host res activeInstances < limitMb d res) ∧
    d.workerCfg.minBufferSizeMb.toNat < 2 ^ 44 ∧
    limitMb d res < captureMb d host res activeInstances + 2 ^ 44

variable {d host res activeInstances}

variable {built : TaskBuildResult} {tasks : List ParsedTask}

theorem toNat_ringCfgMb_of_built (h : buildTasks d host res activeInstances = .ok built) :
    (ringCfgMb built.tasks).toNat = captureMb d host res activeInstances := by
  obtain ⟨buffSize, hsize, hlength, hring⟩ := length_and_ringMb h
  have hcount : built.tasks.length = numTasks d host res activeInstances := by
    rw [numTasks, ← hlength, Nat.add_sub_cancel]
  rw [toNat_ringCfgMb, hring, hcount, captureMb, hsize]
  rfl

/-- The pipeline gets what the limit leaves, at least the least. -/
theorem toNat_pipelineBuffer {taskMem memLimit least : UInt64} :
    (if taskMem < memLimit ∧ least < memLimit - taskMem then memLimit - taskMem
      else least).toNat = max least.toNat (memLimit.toNat - taskMem.toNat) := by
  by_cases hleft : taskMem < memLimit
  · have hsub : (memLimit - taskMem).toNat = memLimit.toNat - taskMem.toNat :=
      UInt64.toNat_sub_of_le _ _ (UInt64.le_of_lt hleft)
    by_cases hmore : least < memLimit - taskMem
    · rw [if_pos ⟨hleft, hmore⟩, hsub]
      have hlt := UInt64.lt_iff_toNat_lt.mp hmore
      omega
    · rw [if_neg fun h => hmore h.2]
      have hle := mt UInt64.lt_iff_toNat_lt.mpr hmore
      omega
  · rw [if_neg fun h => hleft h.1]
    have hle := mt UInt64.lt_iff_toNat_lt.mpr hleft
    omega

/-- **The pipeline section** is accepted exactly when the buffer is in the range of the worker. -/
theorem accepted_pipeline_iff (h : buildTasks d host res activeInstances = .ok built)
    (hmodel : d.workerCfg.executionModel = .pipeline) :
    Accepted (parsePipeline true ((newWorkerConfig d.workerCfg built.tasks
        res).pipelineBufferSizeMb.map fun size =>
      jsonFields [("buffer_size_mb", some (jsonInt size.toNat))])) ↔
    (0 < d.workerCfg.minBufferSizeMb.toNat ∨
      captureMb d host res activeInstances < limitMb d res) ∧
    d.workerCfg.minBufferSizeMb.toNat < 2 ^ 44 ∧
    limitMb d res < captureMb d host res activeInstances + 2 ^ 44 := by
  have hsize : (newWorkerConfig d.workerCfg built.tasks res).pipelineBufferSizeMb =
      some (if ringCfgMb built.tasks < res.effectiveMemLimitMb d.workerCfg.memory.defaultLimitMb ∧
          d.workerCfg.minBufferSizeMb <
            res.effectiveMemLimitMb d.workerCfg.memory.defaultLimitMb - ringCfgMb built.tasks then
        res.effectiveMemLimitMb d.workerCfg.memory.defaultLimitMb - ringCfgMb built.tasks
      else d.workerCfg.minBufferSizeMb) := if_pos hmodel
  rw [hsize]
  show Accepted (getInt64Range (jsonInt _) "pipeline.buffer_size_mb" 1 maxPipelineBufferSizeMb) ↔ _
  rw [accepted_range_iff _ (Int.natCast_nonneg _) (by decide) (by decide), toNat_pipelineBuffer,
    toNat_ringCfgMb_of_built h]
  unfold limitMb maxPipelineBufferSizeMb
  omega

/-! ## The file -/

/-- With an item the buffer is not empty. -/
theorem buffSize_pos {buffSize : UInt64} (hitems : res.numItems activeInstances < 2 ^ 63)
    (hsome : res.numItems activeInstances ≠ 0)
    (h : getTaskBufferSizeMb d.workerCfg.memory res activeInstances = .ok buffSize) :
    0 < buffSize := by
  unfold getTaskBufferSizeMb at h
  rcases d.memoryPolicy_eq with hpolicy | ⟨hpolicy, hfixed⟩
  · rw [hpolicy] at h
    dsimp only at h
    rw [if_neg hsome] at h
    split_ifs at h with hsmall
    obtain rfl := Except.ok.inj h
    have hn : (res.numItems activeInstances).toUInt64.toNat = res.numItems activeInstances :=
      UInt64.toNat_ofNat_of_lt' (lt_of_lt_of_le hitems (by decide))
    have hle := mt UInt64.lt_iff_toNat_lt.mpr hsmall
    apply UInt64.lt_iff_toNat_lt.mpr
    rw [UInt64.toNat_div, hn]
    exact Nat.div_pos (by omega) (by omega)
  · rw [hpolicy] at h
    obtain rfl := Except.ok.inj h
    exact UInt64.pos_iff_ne_zero.mpr hfixed

/-- A fingerprint is given once and is a hash. -/
theorem assignFingerprints_fresh {pk : Packages} {taken : List String}
    {tasks built : List TaskConfig}
    (h : WorkerTaskBuilder.assignFingerprints pk taken tasks = some built) :
    (∀ t ∈ built, ∃ labels, t.fingerprint = some (pk.hash labels) ∧ pk.hash labels ∉ taken) ∧
      (built.map TaskConfig.fingerprint).Nodup := by
  induction tasks generalizing taken built with
  | nil =>
    obtain rfl := some.inj h
    exact ⟨fun t ht => absurd ht List.not_mem_nil, List.nodup_nil⟩
  | cons task tasks ih =>
    rw [WorkerTaskBuilder.assignFingerprints] at h
    obtain ⟨fingerprint, hfind, h⟩ := bind_eq_some_iff.mp h
    obtain ⟨rest, hrest, h⟩ := bind_eq_some_iff.mp h
    obtain rfl := some.inj h
    obtain ⟨hothers, hnodup⟩ := ih hrest
    have hnew : fingerprint ∉ taken := by simpa using List.find?_some hfind
    obtain ⟨seq, -, hhash⟩ := List.mem_map.mp (List.mem_of_find?_eq_some hfind)
    obtain ⟨labels, rfl⟩ : ∃ labels, pk.hash labels = fingerprint := by
      cases seq <;> exact ⟨_, hhash⟩
    refine ⟨List.forall_mem_cons.mpr ⟨⟨labels, rfl, hnew⟩, fun t ht => ?_⟩,
      List.nodup_cons.mpr ⟨fun hmem => ?_, hnodup⟩⟩
    · obtain ⟨labels', hlabels', hfree⟩ := hothers t ht
      exact ⟨labels', hlabels', fun hmem => hfree (List.mem_cons_of_mem _ hmem)⟩
    · obtain ⟨t, ht, heq⟩ := List.mem_map.mp hmem
      obtain ⟨labels', hlabels', hfree⟩ := hothers t ht
      have hsame : pk.hash labels' = pk.hash labels := some.inj (hlabels'.symm.trans heq)
      exact hfree (hsame ▸ List.mem_cons_self)

/-- What the daemon knows of every task that it writes. -/
theorem written_task (h : buildTasks d host res activeInstances = .ok built) :
    (built.tasks.map TaskConfig.fingerprint).Nodup ∧
    ∃ buffSize, getTaskBufferSizeMb d.workerCfg.memory res activeInstances = .ok buffSize ∧
      ∀ t ∈ built.tasks, ∃ task strategy item labels,
        (startBuilder d host activeInstances buffSize).newTaskConfig d.packages strategy item =
          .ok task ∧ t = { task with fingerprint := some (d.packages.hash labels) } := by
  obtain ⟨buffSize, hsize, hassign⟩ := buildTasks_spec h
  obtain ⟨hfresh, hnodup⟩ := assignFingerprints_fresh hassign
  refine ⟨hnodup, buffSize, hsize, fun t ht => ?_⟩
  have huntagged := WorkerTaskBuilder.assignFingerprints_untagged hassign
  obtain ⟨task, htask, hsame⟩ : ∃ task ∈ (itemTasksOf d host res activeInstances buffSize).flatten,
      task.untagged = t.untagged := by
    have hmem : t.untagged ∈ built.tasks.map TaskConfig.untagged := List.mem_map_of_mem ht
    rw [huntagged] at hmem
    exact List.mem_map.mp hmem
  obtain ⟨strategy, -, item, hnew⟩ := exists_item_of_mem_itemTasksOf htask
  obtain ⟨labels, hfingerprint, -⟩ := hfresh t ht
  refine ⟨task, strategy, item, labels, hnew, ?_⟩
  rcases t with ⟨fingerprint, reqPattern, capturer, outputs⟩
  rcases task with ⟨fingerprint', reqPattern', capturer', outputs'⟩
  obtain ⟨-, rfl, rfl, rfl⟩ := TaskConfig.mk.inj hsame
  dsimp only at hfingerprint
  rw [hfingerprint]

/-- The worker accepts all tasks the daemon writes. -/
theorem accepted_written_tasks (htext : ∀ labels, IsFingerprintText (d.packages.hash labels))
    (hitems : res.numItems activeInstances < 2 ^ 63)
    (h : buildTasks d host res activeInstances = .ok built) (hsome : built.tasks ≠ []) :
    ∃ parsed, parseTaskItems [] (built.tasks.map TaskConfig.toJson) = .ok parsed ∧
      parsed.map ParsedTask.fingerprint = built.tasks.map TaskConfig.fingerprint := by
  obtain ⟨hnodup, buffSize, hsize, htasks⟩ := written_task h
  have hcount : res.numItems activeInstances ≠ 0 := by
    intro hzero
    unfold buildTasks at h
    rw [if_pos hzero] at h
    obtain rfl := Except.ok.inj h
    exact hsome rfl
  apply accepted_tasks
  · intro t ht
    obtain ⟨task, strategy, item, labels, hnew, rfl⟩ := htasks t ht
    exact accepted_task (buffSize_pos hitems hcount hsize) hnew (htext labels)
  · simpa using hnodup

theorem Setup.parseExecutionModel_eq (d : Setup) (tasks : List TaskConfig)
    (res : SyncStrategyResponse) :
    parseExecutionModel (some (.string
        (newWorkerConfig d.workerCfg tasks res).executionModel.name)) =
      .ok (decide (d.workerCfg.executionModel = .pipeline)) := by
  show parseExecutionModel (some (.string d.workerCfg.executionModel.name)) = _
  have hmodel := (WorkerConfig.validate_eq_ok.mp d.valid).2.2.1
  rcases hname : d.workerCfg.executionModel with _ | _ | name
  · rfl
  · rfl
  · rw [hname] at hmodel
    cases hmodel

theorem accepted_control (d : Setup) :
    Accepted (parseControl (some d.workerCfg.control.toJson)) := by
  have hcheck := (WorkerConfig.validate_eq_ok.mp d.valid).2.1
  obtain ⟨path, hcontrol⟩ := d.control_eq
  rw [hcontrol] at hcheck ⊢
  rcases path with _ | path
  · cases hcheck
  · exact ⟨some (cString path), rfl⟩

def WorkerFile.pipelineJson (file : WorkerFile) : Option Json :=
  file.pipelineBufferSizeMb.map fun size =>
    jsonFields [("buffer_size_mb", some (jsonInt size.toNat))]

/-- What the worker parses, section by section. -/
theorem parseConfigJson_eq {file : WorkerFile} {pipeline : Bool}
    (htasks : parseTaskItems [] (file.tasks.map TaskConfig.toJson) = .ok tasks)
    (hmodel : parseExecutionModel (some (.string file.executionModel.name)) = .ok pipeline)
    (hcontrol : Accepted (parseControl (some file.control.toJson))) :
    ∃ cpuAffinity controlPath, parseConfigJson file.toJson =
      (do
        let logLevel ← parseLogLevel (some (.string file.logLevel))
        let size ← parsePipeline pipeline file.pipelineJson
        return ⟨tasks, logLevel, cpuAffinity, pipeline, size, controlPath⟩) := by
  obtain ⟨controlPath, hcontrol⟩ := hcontrol
  obtain ⟨cpuAffinity, haffinity⟩ :=
    accepted_optionalString file.cpuAffinity "" "invalid cpu_affinity"
  refine ⟨cpuAffinity, controlPath, ?_⟩
  unfold parseConfigJson parseTasksJson WorkerFile.pipelineJson
  simp only [WorkerFile.toJson, get_jsonFields_cons, get_jsonFields_nil, String.reduceEq, if_true,
    if_false, or_none, requiredArray, haffinity, hmodel, hcontrol]
  simp only [bind, Except.bind, htasks, pure, Except.pure]

/-- With tasks that are accepted, only log level and pipeline decide. -/
theorem accepted_file_iff {file : WorkerFile} {pipeline : Bool}
    (htasks : parseTaskItems [] (file.tasks.map TaskConfig.toJson) = .ok tasks)
    (hmodel : parseExecutionModel (some (.string file.executionModel.name)) = .ok pipeline)
    (hcontrol : Accepted (parseControl (some file.control.toJson))) :
    (∃ parsed, parseConfigJson file.toJson = .ok parsed ∧ parsed.tasks = tasks) ↔
      Accepted (parseLogLevel (some (.string file.logLevel))) ∧
        Accepted (parsePipeline pipeline file.pipelineJson) := by
  obtain ⟨cpuAffinity, controlPath, hparse⟩ := parseConfigJson_eq htasks hmodel hcontrol
  rw [hparse]
  rcases hlevel : parseLogLevel (some (.string file.logLevel)) with err | logLevel
  · refine ⟨?_, ?_⟩
    · rintro ⟨parsed, hparsed, -⟩
      cases hparsed
    · rintro ⟨⟨_, hfalse⟩, -⟩
      cases hfalse
  · rcases hsize : parsePipeline pipeline file.pipelineJson with err | size
    · refine ⟨?_, ?_⟩
      · rintro ⟨parsed, hparsed, -⟩
        cases hparsed
      · rintro ⟨-, ⟨_, hfalse⟩⟩
        cases hfalse
    · exact ⟨fun _ => ⟨⟨_, rfl⟩, ⟨_, rfl⟩⟩, fun _ => ⟨_, rfl, rfl⟩⟩

theorem tasks_of_accepted {json : Json} {parsed : ParsedConfig}
    (h : parseConfigJson json = .ok parsed) (htasks : parseTasksJson json = .ok tasks) :
    parsed.tasks = tasks := by
  unfold parseConfigJson at h
  simp only [bind_eq_ok_iff] at h
  obtain ⟨read, hread, _, -, _, -, _, -, _, -, _, -, hparsed⟩ := h
  obtain rfl := Except.ok.inj hparsed
  exact Except.ok.inj (hread.symm.trans htasks)

/-- **The worker accepts what the daemon writes** exactly when the file is readable, with all tasks.
Source: `cpm/worker_mgr.go` `newWorkerConfig`, `config.c` `parse_config_json` -/
theorem config_accepted_iff
    (htext : ∀ labels, IsFingerprintText (d.packages.hash labels))
    (hitems : res.numItems activeInstances < 2 ^ 63) {built : TaskBuildResult}
    (h : buildTasks d host res activeInstances = .ok built) (hsome : built.tasks ≠ []) :
    (∃ parsed, parseConfigJson (newWorkerConfig d.workerCfg built.tasks res).toJson = .ok parsed ∧
      parsed.tasks.map ParsedTask.fingerprint = built.tasks.map TaskConfig.fingerprint ∧
      (∀ t ∈ parsed.tasks, t.fingerprint.isSome = true) ∧
      (parsed.tasks.map ParsedTask.fingerprint).Nodup) ↔
    Readable d host res activeInstances := by
  obtain ⟨tasks, htasks, hfingerprints⟩ := accepted_written_tasks htext hitems h hsome
  obtain ⟨hnodup, _, -, hwritten⟩ := written_task h
  have hall : ∀ t ∈ tasks, t.fingerprint.isSome = true := by
    intro t ht
    have hmem : t.fingerprint ∈ built.tasks.map TaskConfig.fingerprint :=
      hfingerprints ▸ List.mem_map_of_mem ht
    obtain ⟨t', ht', heq⟩ := List.mem_map.mp hmem
    obtain ⟨_, _, _, _, -, rfl⟩ := hwritten t' ht'
    rw [← heq]
    rfl
  have hread : parseTasksJson (newWorkerConfig d.workerCfg built.tasks res).toJson = .ok tasks := by
    unfold parseTasksJson
    simp only [WorkerFile.toJson, get_jsonFields_cons, get_jsonFields_nil, String.reduceEq, if_true,
      if_false, or_none, requiredArray]
    exact htasks
  have hlevel := accepted_logLevel_iff (WorkerConfig.validate_eq_ok.mp d.valid).1
  -- what is left to read off depends on the log level and on the pipeline section
  have hsplit : (∃ parsed, parseConfigJson (newWorkerConfig d.workerCfg built.tasks res).toJson =
        .ok parsed ∧ parsed.tasks = tasks) ↔ Readable d host res activeInstances := by
    rw [accepted_file_iff htasks (d.parseExecutionModel_eq _ _) (accepted_control d)]
    show Accepted (parseLogLevel (some (.string d.workerCfg.logLevel))) ∧ _ ↔ _
    rw [hlevel]
    by_cases hmodel : d.workerCfg.executionModel = .pipeline
    · rw [decide_eq_true hmodel, WorkerFile.pipelineJson, accepted_pipeline_iff h hmodel]
      exact ⟨fun hboth => ⟨hboth.1, fun _ => hboth.2⟩,
        fun hreadable => ⟨hreadable.logLevel, hreadable.pipeline hmodel⟩⟩
    · rw [decide_eq_false hmodel]
      exact ⟨fun hboth => ⟨hboth.1, fun hpipeline => absurd hpipeline hmodel⟩,
        fun hreadable => ⟨hreadable.logLevel, ⟨0, rfl⟩⟩⟩
  rw [← hsplit]
  constructor
  · rintro ⟨parsed, hparsed, -⟩
    exact ⟨parsed, hparsed, tasks_of_accepted hparsed hread⟩
  · rintro ⟨parsed, hparsed, rfl⟩
    exact ⟨parsed, hparsed, hfingerprints, hall, hfingerprints ▸ hnodup⟩

end file

/-! ## Fingerprints are texts -/

theorem digitChar_ne_zero (n : ℕ) : (Nat.digitChar n).toNat ≠ 0 := by
  by_cases hn : n < 16
  · interval_cases n
    all_goals decide
  · have hstar : Nat.digitChar n = '*' := by
      unfold Nat.digitChar
      iterate 16 rw [if_neg (by omega)]
    rw [hstar]
    decide

theorem ne_zero_of_mem_hexByte {n : ℕ} (h : c ∈ hexByte n) : c.toNat ≠ 0 := by
  simp only [hexByte, List.mem_cons, List.not_mem_nil, or_false] at h
  rcases h with rfl | rfl
  all_goals exact digitChar_ne_zero _

theorem mem_intercalate {gs : List (List Char)} (h : c ∈ List.intercalate ['-'] gs) :
    c = '-' ∨ ∃ g ∈ gs, c ∈ g := by
  induction gs with
  | nil => simp [List.intercalate] at h
  | cons g gs ih =>
    rcases gs with _ | ⟨g', gs⟩
    · exact .inr ⟨g, by simp, by simpa [List.intercalate] using h⟩
    · have hsplit : c ∈ g ∨ c = '-' ∨ c ∈ List.intercalate ['-'] (g' :: gs) := by
        simpa [List.intercalate, List.intersperse_cons_cons] using h
      rcases hsplit with hg | hdash | hrest
      · exact .inr ⟨g, by simp, hg⟩
      · exact .inl hdash
      · obtain hdash | ⟨other, hother, hc⟩ := ih hrest
        · exact .inl hdash
        · exact .inr ⟨other, by simp [hother], hc⟩

theorem isFingerprintText_fingerprintText (h : UInt64) : IsFingerprintText (fingerprintText h) := by
  constructor
  · intro hempty
    have hlength := congrArg (fun s => s.toList.length) hempty
    simp [fingerprintText, hexByte, List.intercalate] at hlength
  · intro c hc
    simp only [fingerprintText, String.toList_ofList] at hc
    obtain rfl | ⟨g, hg, hc⟩ := mem_intercalate hc
    · decide
    · simp only [List.mem_cons, List.not_mem_nil, or_false] at hg
      rcases hg with rfl | rfl | rfl | rfl | rfl
      all_goals
        obtain ⟨digit, -, hdigit⟩ := List.mem_flatMap.mp hc
        exact ne_zero_of_mem_hexByte hdigit

/-! ## A pipeline without a least buffer -/

/-- A daemon with the pipeline model, a limit of 64 MB and this least buffer. -/
def pipelined (least : UInt64) : Setup where
  workerCfg := { sampleConfig .reload with
    executionModel := .pipeline, minBufferSizeMb := least, memory := ⟨.autoNicBuffer, 64, 0⟩ }
  packages := { distinctPackages with hash := fun _ => fingerprintText 0x5302beea29dfba3e }
  daemonUUID := "6f9619ff-8b86-4d01-b42d-00cf4fc964ff"
  valid := by
    obtain ⟨hlevel, hcontrol, -, -, hpolicy⟩ :=
      WorkerConfig.validate_eq_ok.mp (sampleDaemon .reload rfl).valid
    exact WorkerConfig.validate_eq_ok.mpr ⟨hlevel, hcontrol, rfl, rfl, hpolicy⟩

def oneInterface : SyncStrategyResponse where
  daemonId := 1
  version := 1
  strategy := [splitStrategy false]

def oneTask : TaskBuildResult :=
  ⟨[taggedTask none "35333032-6265-6561-3239-646662613365"], [], 64⟩

/-- With a least buffer of 128 MB the file is accepted. -/
theorem config_accepted_iff_least_buffer :
    buildTasks (pipelined 128) sampleOutside.host oneInterface [] = .ok oneTask ∧
    ∃ parsed, parseConfigJson (newWorkerConfig (pipelined 128).workerCfg oneTask.tasks
      oneInterface).toJson = .ok parsed := by
  have hbuilt : buildTasks (pipelined 128) sampleOutside.host oneInterface [] = .ok oneTask := by
    decide +kernel
  refine ⟨hbuilt, ?_⟩
  have hreadable : Readable (pipelined 128) sampleOutside.host oneInterface [] := by
    refine ⟨by decide, fun _ => ⟨.inl (by decide), by decide, ?_⟩⟩
    decide +kernel
  obtain ⟨parsed, hparsed, -⟩ := (config_accepted_iff (fun _ => isFingerprintText_fingerprintText _)
    (by decide +kernel) hbuilt (by decide)).mpr hreadable
  exact ⟨parsed, hparsed⟩

/-- **Without a least buffer the worker refuses the file**: the capture buffer takes the whole limit
and 0 MB are left. -/
theorem empty_pipeline_buffer_refused :
    (pipelined 0).workerCfg.validate = .ok () ∧
    buildTasks (pipelined 0) sampleOutside.host oneInterface [] = .ok oneTask ∧
    (newWorkerConfig (pipelined 0).workerCfg oneTask.tasks oneInterface).pipelineBufferSizeMb =
      some 0 ∧
    ∃ value, parseConfigJson (newWorkerConfig (pipelined 0).workerCfg oneTask.tasks
        oneInterface).toJson =
      .error (.notInRange "pipeline.buffer_size_mb" value 1 maxPipelineBufferSizeMb) := by
  have hbuilt : buildTasks (pipelined 0) sampleOutside.host oneInterface [] = .ok oneTask := by
    decide +kernel
  have hsize : (newWorkerConfig (pipelined 0).workerCfg oneTask.tasks
      oneInterface).pipelineBufferSizeMb = some 0 := by decide +kernel
  refine ⟨(pipelined 0).valid, hbuilt, hsize, 0, ?_⟩
  obtain ⟨tasks, htasks, -⟩ := accepted_written_tasks
    (fun _ => isFingerprintText_fingerprintText _) (by decide +kernel) hbuilt (by decide)
  obtain ⟨cpuAffinity, controlPath, hparse⟩ :=
    parseConfigJson_eq htasks ((pipelined 0).parseExecutionModel_eq oneTask.tasks oneInterface)
      (accepted_control (pipelined 0))
  have hrange : parsePipeline true (newWorkerConfig (pipelined 0).workerCfg oneTask.tasks
      oneInterface).pipelineJson =
      .error (.notInRange "pipeline.buffer_size_mb" 0 1 maxPipelineBufferSizeMb) := by
    rw [WorkerFile.pipelineJson, hsize]
    show getInt64Range (.number 0) "pipeline.buffer_size_mb" 1 maxPipelineBufferSizeMb = _
    rw [getInt64Range, if_pos (Or.inl (by norm_num))]
  have hmodel : (pipelined 0).workerCfg.executionModel = .pipeline := rfl
  rw [hparse, decide_eq_true hmodel, hrange]
  rfl

end CloudProbe.Daemon
