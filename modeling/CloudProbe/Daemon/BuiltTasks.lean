import CloudProbe.Daemon.WorkerMgr

/-!
# The tasks that a strategy gives

The builder walks over strategies and items and collects tasks and warnings. What it collects is a
function of the item alone (`itemTasks`), so the walk is a concatenation (`buildTasks_spec`), with
one entry for every item that `numItems` counts (`length_perItem`).
-/

namespace CloudProbe.Daemon

open List Option

namespace WorkerTaskBuilder

variable (pk : Packages) (b : WorkerTaskBuilder) (strategy : StrategyEntry)

def base : WorkerTaskBuilder := { b with warnings := [], tasks := [] }

def itemTasks (item : TaskItem) : List TaskConfig :=
  (b.newTaskConfig pk strategy item).toOption.toList

/-- The tasks of a container id whose first interface has the number `idx`. -/
def containerTasks (cId : String) (idx : ℕ) : List TaskConfig :=
  let (containerId, nics) := decodeContainerId cId
  if containerId = "" then []
  else
    match b.host.getContainerHostPid containerId with
    | .error _ => []
    | .ok hostPid => (nics.zipIdx idx).flatMap fun nic =>
      itemTasks pk b strategy {
        typ := .container
        nicName := nic.1
        netns := "/proc/" ++ toString hostPid ++ "/ns/net"
        obsIdx := nic.2
        dumpSubDirs := [toString hostPid, nic.1] }

def nextIdx (cId : String) (idx : ℕ) : ℕ :=
  if (decodeContainerId cId).1 = "" then idx else idx + (decodeContainerId cId).2.length

def perContainer : List String → ℕ → List (List TaskConfig)
  | [], _ => []
  | cId :: rest, idx => containerTasks pk b strategy cId idx :: perContainer rest (nextIdx cId idx)

def interfaceTasks (interfaceName : String × ℕ) : List TaskConfig :=
  itemTasks pk b strategy {
    typ := .interface
    nicName := interfaceName.1
    obsIdx := interfaceName.2
    dumpSubDirs := [interfaceName.1] }

/-- The tasks of a virtual machine: its first interface. -/
def instanceTasks (instanceName : String × ℕ) : List TaskConfig :=
  match b.host.getKvmInstanceNics instanceName.1 with
  | .error _ | .ok [] => []
  | .ok (nic :: _) =>
    itemTasks pk b strategy {
      typ := .kvmInstance
      nicName := nic
      obsIdx := instanceName.2
      dumpSubDirs := [nic] }

def accepts : Bool :=
  (b.newTaskConfig pk strategy { typ := .interface, nicName := "eth0", obsIdx := 0 }).toBool

/-- The tasks of each item that the strategy asks for. -/
def perItem : List (List TaskConfig) :=
  if b.accepts pk strategy then
    if 0 < strategy.containerIds.length then perContainer pk b strategy strategy.containerIds 0
    else if 0 < strategy.interfaceNames.length then
      strategy.interfaceNames.zipIdx.map (interfaceTasks pk b strategy)
    else
      (strategy.instanceNames.zipIdx.filter fun instanceName =>
        b.activeInstances.contains instanceName.1).map (instanceTasks pk b strategy)
  else List.replicate (strategy.numItems b.activeInstances) []

theorem length_perContainer (cIds : List String) (idx : ℕ) :
    (perContainer pk b strategy cIds idx).length = cIds.length := by
  induction cIds generalizing idx with
  | nil => rfl
  | cons cId rest ih => simp [perContainer, ih]

theorem length_perItem : (perItem pk b strategy).length = strategy.numItems b.activeInstances := by
  unfold perItem
  split
  · unfold StrategyEntry.numItems
    split
    · exact length_perContainer pk b strategy _ 0
    · split
      · rw [length_map, length_zipIdx]
      · rw [length_map, ← countP_eq_length_filter]
        have hfst : strategy.instanceNames = strategy.instanceNames.zipIdx.map Prod.fst := by simp
        rw [hfst, countP_map, ← hfst]
        rfl
  · exact length_replicate

/-! ## The walk -/

/-- The builder `b'` is `b` with the tasks `ts` added, and warnings. -/
structure Adds (b b' : WorkerTaskBuilder) (ts : List TaskConfig) : Prop where
  tasks : b'.tasks = b.tasks ++ ts
  base : b'.base = b.base

variable {pk b strategy} {b' b'' : WorkerTaskBuilder} {ts ts' : List TaskConfig}

variable {task : TaskConfig}

/-- **What is behind a task that was built**: the arguments of its strategy and its output. -/
theorem newTaskConfig_eq_ok {item : TaskItem} :
    b.newTaskConfig pk strategy item = .ok task ↔
      ∃ args, strategyArgs pk strategy = .ok args ∧ validateStrategy strategy args = .ok () ∧
        checkNoFilter strategy args item = .ok () ∧
        ∃ output, newOutput b.host b.daemonUUID strategy args item = .ok output ∧
          b.taskOf strategy args item output = task := by
  unfold newTaskConfig
  simp only [bind_eq_ok_iff, pure, Except.pure, Except.ok.injEq]
  exact ⟨fun ⟨args, hargs, _, hvalid, _, hfilter, h⟩ => ⟨args, hargs, hvalid, hfilter, h⟩,
    fun ⟨args, hargs, hvalid, hfilter, h⟩ => ⟨args, hargs, (), hvalid, (), hfilter, h⟩⟩

theorem Adds.trans (h : Adds b b' ts) (h' : Adds b' b'' ts') : Adds b b'' (ts ++ ts') := by
  refine ⟨?_, h'.base.trans h.base⟩
  rw [h'.tasks, h.tasks, append_assoc]

theorem Adds.warn (warning : String) : Adds b { b with warnings := b.warnings ++ [warning] } [] :=
  ⟨(append_nil _).symm, rfl⟩

theorem addItem_adds (item : TaskItem) :
    Adds b (b.addItem pk strategy item) (itemTasks pk b strategy item) := by
  unfold addItem itemTasks
  rcases b.newTaskConfig pk strategy item with err | task
  · exact .warn err
  · exact ⟨rfl, rfl⟩

theorem mem_itemTasks {item : TaskItem} :
    task ∈ itemTasks pk b strategy item ↔ b.newTaskConfig pk strategy item = .ok task := by
  unfold itemTasks
  rcases b.newTaskConfig pk strategy item with err | made
  · simp [Except.toOption]
  · simp [Except.toOption, eq_comm]

theorem foldl_adds {α : Type} {f : WorkerTaskBuilder → α → WorkerTaskBuilder}
    {g : WorkerTaskBuilder → α → List TaskConfig} (hf : ∀ b x, Adds b (f b x) (g b.base x))
    (b : WorkerTaskBuilder) (xs : List α) : Adds b (xs.foldl f b) (xs.flatMap (g b.base)) := by
  induction xs generalizing b with
  | nil => exact ⟨(append_nil _).symm, rfl⟩
  | cons x xs ih =>
    have hrest := ih (f b x)
    rw [(hf b x).base] at hrest
    exact (hf b x).trans hrest

/-- The loop over the containers adds the tasks of each. -/
theorem addContainerIds_adds (cIds : List String) (idx : ℕ) (b : WorkerTaskBuilder) :
    Adds b (addContainerIds pk strategy cIds idx b)
      (perContainer pk b.base strategy cIds idx).flatten := by
  induction cIds generalizing idx b with
  | nil => exact ⟨(append_nil _).symm, rfl⟩
  | cons cId rest ih =>
    unfold addContainerIds perContainer containerTasks nextIdx
    rcases decodeContainerId cId with ⟨containerId, nics⟩
    by_cases hid : containerId = ""
    · simp only [hid, if_true, flatten_cons]
      exact (Adds.warn _).trans (ih idx _)
    · simp only [hid, if_false, flatten_cons]
      have hhost : b.base.host = b.host := rfl
      rw [hhost]
      rcases b.host.getContainerHostPid containerId with err | hostPid
      · exact (Adds.warn _).trans (ih (idx + nics.length) _)
      · have hnics := foldl_adds (f := addContainerId pk strategy hostPid)
          (g := fun b nic => itemTasks pk b strategy {
            typ := .container
            nicName := nic.1
            netns := "/proc/" ++ toString hostPid ++ "/ns/net"
            obsIdx := nic.2
            dumpSubDirs := [toString hostPid, nic.1] })
          (fun b nic => addItem_adds _) b (nics.zipIdx idx)
        have hrest := ih (idx + nics.length)
          ((nics.zipIdx idx).foldl (addContainerId pk strategy hostPid) b)
        rw [hnics.base] at hrest
        exact hnics.trans hrest

/-- A virtual machine that does not run adds nothing. -/
theorem addInstanceName_adds (instanceName : String × ℕ) :
    Adds b (addInstanceName pk strategy b instanceName)
      (if b.base.activeInstances.contains instanceName.1 then
        instanceTasks pk b.base strategy instanceName else []) := by
  have hactive : b.base.activeInstances = b.activeInstances := rfl
  have hhost : b.base.host = b.host := rfl
  unfold addInstanceName instanceTasks
  rw [hactive, hhost]
  by_cases hname : b.activeInstances.contains instanceName.1 = true
  · simp only [hname, Bool.not_true, Bool.false_eq_true, if_false, if_true]
    rcases b.host.getKvmInstanceNics instanceName.1 with err | nics
    · exact .warn err
    · cases nics with
      | nil => exact .warn _
      | cons nic rest => exact addItem_adds _
  · simp only [hname, Bool.not_false, if_true]
    exact .warn _

theorem exists_item_of_mem_containerTasks {cId : String} {idx : ℕ}
    (h : task ∈ containerTasks pk b strategy cId idx) :
    ∃ item, b.newTaskConfig pk strategy item = .ok task := by
  unfold containerTasks at h
  simp only at h
  split at h
  · cases h
  · split at h
    · cases h
    · obtain ⟨nic, -, hnic⟩ := mem_flatMap.mp h
      exact ⟨_, mem_itemTasks.mp hnic⟩

/-- Behind every task there is an item it was built for. -/
theorem exists_item_of_mem_perItem {tasks : List TaskConfig}
    (htasks : tasks ∈ perItem pk b strategy) (h : task ∈ tasks) :
    ∃ item, b.newTaskConfig pk strategy item = .ok task := by
  have hcontainers : ∀ (cIds : List String) (idx : ℕ), tasks ∈ perContainer pk b strategy cIds idx →
      ∃ item, b.newTaskConfig pk strategy item = .ok task := by
    intro cIds
    induction cIds with
    | nil => exact fun idx hnil => absurd hnil not_mem_nil
    | cons cId rest ih =>
      intro idx hcons
      rcases mem_cons.mp hcons with rfl | hrest
      · exact exists_item_of_mem_containerTasks h
      · exact ih _ hrest
  unfold perItem at htasks
  split at htasks
  · split at htasks
    · exact hcontainers _ _ htasks
    · split at htasks
      · obtain ⟨interfaceName, -, rfl⟩ := mem_map.mp htasks
        exact ⟨_, mem_itemTasks.mp h⟩
      · obtain ⟨instanceName, -, rfl⟩ := mem_map.mp htasks
        unfold instanceTasks at h
        split at h
        · cases h
        · cases h
        · exact ⟨_, mem_itemTasks.mp h⟩
  · obtain rfl := eq_of_mem_replicate htasks
    cases h

theorem flatMap_ite {α : Type} (p : α → Bool) (g : α → List TaskConfig) (xs : List α) :
    (xs.flatMap fun x => if p x then g x else []) = ((xs.filter p).map g).flatten := by
  induction xs with
  | nil => rfl
  | cons x xs ih =>
    by_cases hx : p x = true
    all_goals simp [hx, ih]

/-- A strategy adds the tasks of its items, in order. -/
theorem addStrategy_adds : Adds b (addStrategy pk b strategy)
    (perItem pk b.base strategy).flatten := by
  have haccepts : b.base.newTaskConfig pk strategy
      { typ := .interface, nicName := "eth0", obsIdx := 0 } =
    b.newTaskConfig pk strategy { typ := .interface, nicName := "eth0", obsIdx := 0 } := rfl
  unfold addStrategy perItem accepts
  rw [haccepts]
  rcases b.newTaskConfig pk strategy { typ := .interface, nicName := "eth0", obsIdx := 0 } with
    err | task
  · simp only [Except.toBool, Bool.false_eq_true, if_false, flatten_replicate_nil]
    exact .warn err
  · simp only [Except.toBool, if_true]
    split
    · exact addContainerIds_adds _ 0 b
    · split
      · rw [← flatMap_def]
        exact foldl_adds (g := fun b => interfaceTasks pk b strategy)
          (fun b interfaceName => addItem_adds _) b _
      · rw [← flatMap_ite]
        exact foldl_adds (g := fun b instanceName =>
            if b.activeInstances.contains instanceName.1 then
              instanceTasks pk b strategy instanceName
            else [])
          (fun b instanceName => addInstanceName_adds instanceName) b _

/-! ## The fingerprints -/

end WorkerTaskBuilder

def TaskConfig.untagged (task : TaskConfig) : TaskConfig := { task with fingerprint := none }

namespace WorkerTaskBuilder

theorem assignFingerprints_untagged {pk : Packages} {taken : List String}
    {tasks tagged : List TaskConfig}
    (h : assignFingerprints pk taken tasks = some tagged) :
    tagged.map TaskConfig.untagged = tasks.map TaskConfig.untagged := by
  induction tasks generalizing taken tagged with
  | nil =>
    obtain rfl := some.inj h
    rfl
  | cons task rest ih =>
    unfold assignFingerprints at h
    obtain ⟨fingerprint, -, h⟩ := bind_eq_some_iff.mp h
    obtain ⟨rest', hrest, h⟩ := bind_eq_some_iff.mp h
    obtain rfl := some.inj h
    rw [map_cons, map_cons, ih hrest]
    rfl

end WorkerTaskBuilder

/-! ## The tasks of a response -/

def startBuilder (d : Setup) (host : Host) (activeInstances : List String) (buffSize : UInt64) :
    WorkerTaskBuilder :=
  { host, daemonUUID := d.daemonUUID, activeInstances, buffSize }

def itemTasksOf (d : Setup) (host : Host) (res : SyncStrategyResponse)
    (activeInstances : List String)
    (buffSize : UInt64) : List (List TaskConfig) :=
  res.strategy.flatMap
    (WorkerTaskBuilder.perItem d.packages (startBuilder d host activeInstances buffSize))

variable {d : Setup} {host : Host} {res : SyncStrategyResponse} {activeInstances : List String}

theorem length_itemTasksOf (buffSize : UInt64) :
    (itemTasksOf d host res activeInstances buffSize).length = res.numItems activeInstances := by
  unfold itemTasksOf SyncStrategyResponse.numItems
  rw [length_flatMap]
  congr 1
  apply map_congr_left
  intro strategy _
  exact WorkerTaskBuilder.length_perItem _ _ strategy

/-- **The loop lemma** over the strategies. -/
theorem tasks_foldl_addStrategy (buffSize : UInt64) :
    (res.strategy.foldl (WorkerTaskBuilder.addStrategy d.packages)
      (startBuilder d host activeInstances buffSize)).tasks =
      (itemTasksOf d host res activeInstances buffSize).flatten := by
  have hadds := WorkerTaskBuilder.foldl_adds (f := WorkerTaskBuilder.addStrategy d.packages)
    (g := fun b strategy => (WorkerTaskBuilder.perItem d.packages b strategy).flatten)
    (fun b strategy => WorkerTaskBuilder.addStrategy_adds)
    (startBuilder d host activeInstances buffSize) res.strategy
  have hstart : (startBuilder d host activeInstances buffSize).base =
    startBuilder d host activeInstances buffSize := rfl
  rw [hadds.tasks, hstart]
  unfold itemTasksOf
  show [] ++ _ = _
  rw [nil_append, ← flatMap_id, flatMap_assoc]
  simp only [flatMap_id]

theorem exists_item_of_mem_itemTasksOf {buffSize : UInt64} {task : TaskConfig}
    (h : task ∈ (itemTasksOf d host res activeInstances buffSize).flatten) :
    ∃ strategy ∈ res.strategy, ∃ item,
      (startBuilder d host activeInstances buffSize).newTaskConfig d.packages strategy item =
        .ok task := by
  obtain ⟨tasks, htasks, h⟩ := mem_flatten.mp h
  obtain ⟨strategy, hstrategy, htasks⟩ := mem_flatMap.mp htasks
  exact ⟨strategy, hstrategy, WorkerTaskBuilder.exists_item_of_mem_perItem htasks h⟩

theorem Setup.memoryPolicy_eq (d : Setup) :
    d.workerCfg.memory.policy = .autoNicBuffer ∨
      d.workerCfg.memory.policy = .fixedNicBuffer ∧ d.workerCfg.memory.fixedBufferSizeMb ≠ 0 := by
  have hmemory := (WorkerConfig.validate_eq_ok.mp d.valid).2.2.2.1
  unfold MemoryConfig.check at hmemory
  rcases hpolicy : d.workerCfg.memory.policy with _ | _ | name
  · exact .inl rfl
  · rw [hpolicy] at hmemory
    refine .inr ⟨rfl, fun hzero => ?_⟩
    simp [hzero] at hmemory
  · rw [hpolicy] at hmemory
    cases hmemory

/-- **The tasks built** are those of all items, with buffers of one size and their fingerprints. -/
theorem buildTasks_spec {built : TaskBuildResult}
    (h : buildTasks d host res activeInstances = .ok built) :
    ∃ buffSize, getTaskBufferSizeMb d.workerCfg.memory res activeInstances = .ok buffSize ∧
      WorkerTaskBuilder.assignFingerprints d.packages []
        (itemTasksOf d host res activeInstances buffSize).flatten = some built.tasks := by
  unfold buildTasks at h
  split_ifs at h with hitems
  · obtain rfl := Except.ok.inj h
    have hnone : ∀ buffSize, itemTasksOf d host res activeInstances buffSize = [] := fun buffSize =>
      length_eq_zero_iff.mp ((length_itemTasksOf buffSize).trans hitems)
    have hsize : ∃ buffSize, getTaskBufferSizeMb d.workerCfg.memory res activeInstances =
        .ok buffSize := by
      unfold getTaskBufferSizeMb
      rcases d.memoryPolicy_eq with hpolicy | ⟨hpolicy, -⟩
      · rw [hpolicy]
        exact ⟨0, if_pos hitems⟩
      · rw [hpolicy]
        exact ⟨_, rfl⟩
    obtain ⟨buffSize, hsize⟩ := hsize
    refine ⟨buffSize, hsize, ?_⟩
    rw [hnone]
    rfl
  · rcases hsize : getTaskBufferSizeMb d.workerCfg.memory res activeInstances with err | buffSize
    · rw [hsize] at h
      cases h
    · refine ⟨buffSize, rfl, ?_⟩
      rw [hsize] at h
      simp only at h
      rw [← tasks_foldl_addStrategy]
      unfold WorkerTaskBuilder.build at h
      unfold startBuilder
      generalize WorkerTaskBuilder.assignFingerprints d.packages [] _ = tagged at h ⊢
      match tagged with
      | none => cases h
      | some tasks =>
        obtain rfl := Except.ok.inj h
        rfl

end CloudProbe.Daemon
