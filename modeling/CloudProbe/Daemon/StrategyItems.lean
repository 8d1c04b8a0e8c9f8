import CloudProbe.Daemon.BuiltTasks
import CloudProbe.Daemon.StartupFlags

/-!
# The items of a strategy

An item is an interface that the builder resolved: of a container, of the host, or of a running
virtual machine. Its task depends on the strategy and on the item, and on nothing the tool says
about another item.

Sources without a file are in `cpm/worker_task_builder.go`.
-/

namespace CloudProbe.Daemon

open List

namespace WorkerTaskBuilder

/-- What the tool answers to a lookup of a container. -/
abbrev PidTool : Type := String → Except String ℤ

/-- Source: `addContainerId`, its item -/
def containerItem (hostPid : ℤ) (nic : String × ℕ) : TaskItem where
  typ := .container
  nicName := nic.1
  netns := "/proc/" ++ toString hostPid ++ "/ns/net"
  obsIdx := nic.2
  dumpSubDirs := [toString hostPid, nic.1]

/-- Source: `addInterfaceName`, its item -/
def interfaceItem (interfaceName : String × ℕ) : TaskItem where
  typ := .interface
  nicName := interfaceName.1
  obsIdx := interfaceName.2
  dumpSubDirs := [interfaceName.1]

/-- The items of a container id whose first interface has the number `idx`. -/
def containerItems (tool : PidTool) (cId : String) (idx : ℕ) : List TaskItem :=
  let (containerId, nics) := decodeContainerId cId
  if containerId = "" then []
  else
    match tool containerId with
    | .error _ => []
    | .ok hostPid => (nics.zipIdx idx).map (containerItem hostPid)

/-- The items of each container id, with the tool that is asked at its position. -/
def perContainerItems (tools : ℕ → PidTool) : List String → ℕ → ℕ → List (List TaskItem)
  | [], _, _ => []
  | cId :: rest, pos, idx =>
    containerItems (tools pos) cId idx :: perContainerItems tools rest (pos + 1) (nextIdx cId idx)

/-- The item of a virtual machine that runs and has an interface.
Source: `addInstanceName`, its item -/
def instanceItem (b : WorkerTaskBuilder) (instanceName : String × ℕ) : Option TaskItem :=
  if b.activeInstances.contains instanceName.1 then
    match b.host.getKvmInstanceNics instanceName.1 with
    | .error _ | .ok [] => none
    | .ok (nic :: _) =>
      some { typ := .kvmInstance, nicName := nic, obsIdx := instanceName.2, dumpSubDirs := [nic] }
  else none

def items (b : WorkerTaskBuilder) (strategy : StrategyEntry) : List TaskItem :=
  if 0 < strategy.containerIds.length then
    (perContainerItems (fun _ => b.host.getContainerHostPid) strategy.containerIds 0 0).flatten
  else if 0 < strategy.interfaceNames.length then
    strategy.interfaceNames.zipIdx.map interfaceItem
  else strategy.instanceNames.zipIdx.filterMap (instanceItem b)

variable {pk : Packages} {b : WorkerTaskBuilder} {strategy : StrategyEntry}

theorem containerTasks_eq (cId : String) (idx : ℕ) :
    containerTasks pk b strategy cId idx =
      (containerItems b.host.getContainerHostPid cId idx).flatMap (itemTasks pk b strategy) := by
  unfold containerTasks containerItems
  rcases decodeContainerId cId with ⟨containerId, nics⟩
  by_cases hid : containerId = ""
  · simp only [hid, if_true, flatMap_nil]
  · simp only [hid, if_false]
    rcases b.host.getContainerHostPid containerId with err | hostPid
    · rfl
    · simp only [flatMap_map]
      rfl

theorem perContainer_eq (cIds : List String) (pos idx : ℕ) :
    perContainer pk b strategy cIds idx =
      (perContainerItems (fun _ => b.host.getContainerHostPid) cIds pos idx).map
        (·.flatMap (itemTasks pk b strategy)) := by
  induction cIds generalizing pos idx with
  | nil => rfl
  | cons cId rest ih =>
    rw [perContainer, perContainerItems, map_cons, containerTasks_eq, ih]

/-! ## Acceptable items -/

/-- The tasks of an accepted strategy are those of its items. -/
theorem perItem_flatten (h : b.accepts pk strategy = true) :
    (perItem pk b strategy).flatten = (b.items strategy).flatMap (itemTasks pk b strategy) := by
  rw [perItem, if_pos h, items]
  split_ifs with hids hnames
  · rw [perContainer_eq _ 0, ← flatMap_def, ← flatMap_id, flatMap_assoc]
    rfl
  · rw [← flatMap_def, flatMap_map]
    rfl
  · rw [← flatMap_ite, filterMap_eq_flatMap_toList, flatMap_assoc]
    congr 1
    funext instanceName
    unfold instanceItem instanceTasks
    split_ifs with hactive
    · rcases b.host.getKvmInstanceNics instanceName.1 with err | _ | ⟨nic, rest⟩
      · rfl
      · rfl
      · exact (append_nil _).symm
    · rfl

variable (pk b strategy) in
def Acceptable (item : TaskItem) : Prop := ∃ task, b.newTaskConfig pk strategy item = .ok task

theorem flatMap_itemTasks_eq_nil_iff (items : List TaskItem) :
    items.flatMap (itemTasks pk b strategy) = [] ↔
      ∀ item ∈ items, ¬ Acceptable pk b strategy item := by
  rw [flatMap_eq_nil_iff]
  refine forall₂_congr fun item _ => ?_
  simp only [eq_nil_iff_forall_not_mem, mem_itemTasks, Acceptable, not_exists]

variable (pk b strategy) in
/-- The probe is refused for what it is: an interface `eth0` of the host with no directory of its
own. -/
def ProbeRefused : Prop :=
  ∃ args, strategyArgs pk strategy = .ok args ∧
    (args.noFilter = some true ∧
        ((strategy.packetChannelType ≠ .gre ∧ strategy.packetChannelType ≠ .vxlan) ∨
          args.bindDevice = none ∨ args.bindDevice = some "eth0") ∨
      strategy.packetChannelType = .file ∧
        ∃ dumpDir, strategy.dumpDir = some dumpDir ∧ b.host.mkdirAll (joinPath [dumpDir]) ≠ none)

variable {item : TaskItem} {args : StartupArgs}

theorem checkNoFilter_eq_ok :
    checkNoFilter strategy args item = .ok () ↔
      ¬ (args.noFilter = some true ∧ allowNoFilter strategy args item = false) := by
  rw [checkNoFilter]
  split_ifs with h
  · simpa using h
  · simpa using h

theorem allowNoFilter_probe (htyp : item.typ = .interface) (hnic : item.nicName = "eth0") :
    allowNoFilter strategy args item = false ↔
      (strategy.packetChannelType ≠ .gre ∧ strategy.packetChannelType ≠ .vxlan) ∨
        args.bindDevice = none ∨ args.bindDevice = some "eth0" := by
  rw [allowNoFilter, if_neg (not_not.mpr htyp), hnic]
  by_cases hchannel : strategy.packetChannelType ≠ .gre ∧ strategy.packetChannelType ≠ .vxlan
  · simp [hchannel]
  · rw [if_neg hchannel]
    rcases args.bindDevice with _ | device
    · simp
    · simp [hchannel]

theorem newOutput_probe {host : Host} {uuid : String} {probe : TaskItem} {output : OutputConfig}
    (h : newOutput host uuid strategy args item = .ok output) (hprobe : probe.dumpSubDirs = []) :
    (∃ output, newOutput host uuid strategy args probe = .ok output) ↔
      ¬ (strategy.packetChannelType = .file ∧
        ∃ dumpDir, strategy.dumpDir = some dumpDir ∧
          host.mkdirAll (joinPath [dumpDir]) ≠ none) := by
  unfold newOutput at h ⊢
  rw [hprobe]
  rcases hchannel : strategy.packetChannelType with _ | _ | _ | _ | name
  · simp
  · simp
  · simp
  · rw [hchannel] at h
    rcases hdir : strategy.dumpDir with _ | dumpDir
    · simp [hdir] at h
    · rcases hmk : host.mkdirAll (joinPath [dumpDir]) with _ | err
      all_goals simp [hmk]
  · simp [hchannel] at h

/-- With an acceptable item only the probe can refuse the strategy. -/
theorem accepts_iff_of_acceptable (h : Acceptable pk b strategy item) :
    b.accepts pk strategy = true ↔ ¬ ProbeRefused pk b strategy := by
  obtain ⟨task, htask⟩ := h
  obtain ⟨args, hargs, hvalid, -, output, houtput, -⟩ := newTaskConfig_eq_ok.mp htask
  have haccepts : b.accepts pk strategy = true ↔ ∃ task, b.newTaskConfig pk strategy
      { typ := .interface, nicName := "eth0", obsIdx := 0 } = .ok task := by
    rw [accepts]
    rcases b.newTaskConfig pk strategy { typ := .interface, nicName := "eth0", obsIdx := 0 } with
      err | made
    all_goals simp [Except.toBool]
  have hmade : (∃ task, b.newTaskConfig pk strategy
      { typ := .interface, nicName := "eth0", obsIdx := 0 } = .ok task) ↔
      checkNoFilter strategy args { typ := .interface, nicName := "eth0", obsIdx := 0 } = .ok () ∧
        ∃ output, newOutput b.host b.daemonUUID strategy args
          { typ := .interface, nicName := "eth0", obsIdx := 0 } = .ok output := by
    simp only [newTaskConfig_eq_ok, hargs, Except.ok.injEq]
    constructor
    · rintro ⟨task, _, rfl, -, hfilter, output, hout, -⟩
      exact ⟨hfilter, output, hout⟩
    · rintro ⟨hfilter, output, hout⟩
      exact ⟨_, args, rfl, hvalid, hfilter, output, hout, rfl⟩
  rw [haccepts, hmade, checkNoFilter_eq_ok, allowNoFilter_probe rfl rfl,
    newOutput_probe houtput rfl, ← not_or, ProbeRefused, hargs]
  simp only [Except.ok.injEq, exists_eq_left']

/-- **The acceptable items get their tasks, in order, exactly when there is none or the probe is not
refused for what it is.** Source: `addStrategy`, `newTaskConfig` -/
theorem items_built_iff (pk : Packages) (b : WorkerTaskBuilder) (strategy : StrategyEntry) :
    ((addStrategy pk b strategy).tasks =
        b.tasks ++ (b.items strategy).flatMap (itemTasks pk b strategy) ∧
      (b.accepts pk strategy = false →
        ∀ item ∈ b.items strategy, ¬ Acceptable pk b strategy item)) ↔
      (∀ item ∈ b.items strategy, ¬ Acceptable pk b strategy item) ∨
        ¬ ProbeRefused pk b strategy := by
  have hadds : (addStrategy pk b strategy).tasks =
    b.tasks ++ (perItem pk b.base strategy).flatten := addStrategy_adds.tasks
  by_cases hnone : ∀ item ∈ b.items strategy, ¬ Acceptable pk b strategy item
  · refine iff_of_true ⟨?_, fun _ => hnone⟩ (.inl hnone)
    rw [hadds]
    congr 1
    by_cases haccepts : b.accepts pk strategy = true
    · exact perItem_flatten (b := b.base) haccepts
    · rw [(flatMap_itemTasks_eq_nil_iff _).mpr hnone, perItem,
        if_neg (show ¬ b.base.accepts pk strategy = true from haccepts), flatten_replicate_nil]
  · obtain ⟨item, -, hacceptable⟩ :
        ∃ item ∈ b.items strategy, Acceptable pk b strategy item := by
      by_contra hall
      exact hnone fun item hitem h => hall ⟨item, hitem, h⟩
    rw [← accepts_iff_of_acceptable hacceptable]
    constructor
    · rintro ⟨-, hprobe⟩
      refine .inr ?_
      by_contra hrefused
      exact hnone (hprobe (by simpa using hrefused))
    · rintro (h | haccepts)
      · exact absurd h hnone
      · refine ⟨?_, fun h => by rw [haccepts] at h; cases h⟩
        rw [hadds]
        congr 1
        exact perItem_flatten (b := b.base) haccepts

/-- A strategy for the interface `eth1` whose output goes out through `eth0`. -/
def throughEth0 : StrategyEntry where
  interfaceNames := ["eth1"]
  startup := some "--nofilter=true --bind_device=eth0"
  packetChannelType := .gre
  address := "10.0.0.1"

def boolPackages : Packages :=
  (Strconv.pflag ⟨fun _ => .error "invalid syntax", fun value => .ok (value = "true")⟩).packages
    fun _ => ""

theorem strategyArgs_throughEth0 : strategyArgs boolPackages throughEth0 =
    .ok { bindDevice := some "eth0", noFilter := some true } := by
  have hparse := parseStartup_known
    (Strconv.pflag ⟨fun _ => .error "invalid syntax", fun value => .ok (value = "true")⟩)
    [⟨.noFilter, "true", true, rfl⟩, ⟨.bindDevice, "eth0", "eth0", rfl⟩]
    ⟨"--nofilter=true --bind_device=eth0", by decide⟩
  rw [strategyArgs, throughEth0]
  simp only [boolPackages, Pflag.parseStartup_packages, hparse]
  rfl

def plainBuilder : WorkerTaskBuilder :=
  ⟨⟨fun _ => .error "", .ok [], fun _ => .ok [], fun _ => none⟩, "", [], 64, [], []⟩

/-- The item `eth1` is acceptable, but the probe stands for `eth0` and is refused: no task. -/
theorem probe_refuses_acceptable :
    plainBuilder.items throughEth0 = [interfaceItem ("eth1", 0)] ∧
      Acceptable boolPackages plainBuilder throughEth0 (interfaceItem ("eth1", 0)) ∧
      plainBuilder.accepts boolPackages throughEth0 = false ∧
      (addStrategy boolPackages plainBuilder throughEth0).tasks = [] := by
  have hitem : Acceptable boolPackages plainBuilder throughEth0 (interfaceItem ("eth1", 0)) :=
    ⟨_, newTaskConfig_eq_ok.mpr ⟨_, strategyArgs_throughEth0, rfl, rfl, _, rfl, rfl⟩⟩
  have hprobe : plainBuilder.accepts boolPackages throughEth0 = false := by
    rw [← Bool.not_eq_true, accepts_iff_of_acceptable hitem, not_not]
    exact ⟨_, strategyArgs_throughEth0, .inl ⟨rfl, .inr (.inr rfl)⟩⟩
  refine ⟨rfl, hitem, hprobe, ?_⟩
  rw [addStrategy_adds.tasks, perItem,
    if_neg (by
      rw [show plainBuilder.base.accepts boolPackages throughEth0 = false from hprobe]
      simp)]
  rfl

/-! ## Tags of containers -/

def tooled (b : WorkerTaskBuilder) (tool : PidTool) : WorkerTaskBuilder :=
  { b with host := { b.host with getContainerHostPid := tool } }

theorem addContainerIds_cons (cId : String) (rest : List String) (idx : ℕ) (b : WorkerTaskBuilder) :
    addContainerIds pk strategy (cId :: rest) idx b =
      addContainerIds pk strategy rest (nextIdx cId idx)
        (addContainerIds pk strategy [cId] idx b) := by
  simp only [addContainerIds, nextIdx]
  by_cases hid : (decodeContainerId cId).1 = ""
  · simp only [hid, if_true]
  · simp only [hid, if_false]
    rcases b.host.getContainerHostPid (decodeContainerId cId).1 with err | hostPid
    all_goals rfl

variable (pk strategy) in
/-- The loop with a tool that may answer differently at every position.
Source: `addContainerIds` -/
def addContainerIdsOver (tools : ℕ → PidTool) :
    List String → ℕ → ℕ → WorkerTaskBuilder → WorkerTaskBuilder
  | [], _, _, b => b
  | cId :: rest, pos, idx, b =>
    addContainerIdsOver tools rest (pos + 1) (nextIdx cId idx)
      (addContainerIds pk strategy [cId] idx (b.tooled (tools pos)))

theorem addContainerIdsOver_host {tool : PidTool} (h : b.host.getContainerHostPid = tool)
    (cIds : List String) (pos idx : ℕ) :
    addContainerIdsOver pk strategy (fun _ => tool) cIds pos idx b =
      addContainerIds pk strategy cIds idx b := by
  induction cIds generalizing pos idx b with
  | nil => rfl
  | cons cId rest ih =>
    have htooled : b.tooled tool = b := by rw [← h]; rfl
    have hbase : (addContainerIds pk strategy [cId] idx b).base = b.base :=
      (addContainerIds_adds [cId] idx b).base
    have hhost : (addContainerIds pk strategy [cId] idx b).host.getContainerHostPid = tool :=
      (congrArg (·.host.getContainerHostPid) hbase).trans h
    rw [addContainerIdsOver, htooled, ih hhost, ← addContainerIds_cons]

variable (pk b strategy) in
def perContainerTasks (tools : ℕ → PidTool) (cIds : List String) (pos idx : ℕ) :
    List (List TaskConfig) :=
  (perContainerItems tools cIds pos idx).map (·.flatMap (itemTasks pk b strategy))

/-- A run adds the tasks of its positions, whatever the tools. -/
theorem addContainerIdsOver_tasks (tools : ℕ → PidTool) (cIds : List String) (pos idx : ℕ)
    (b : WorkerTaskBuilder) :
    (addContainerIdsOver pk strategy tools cIds pos idx b).tasks =
      b.tasks ++ (perContainerTasks pk b strategy tools cIds pos idx).flatten := by
  induction cIds generalizing pos idx b with
  | nil => exact (append_nil _).symm
  | cons cId rest ih =>
    obtain ⟨htasks, hbase⟩ : Adds (b.tooled (tools pos))
        (addContainerIds pk strategy [cId] idx (b.tooled (tools pos))) _ :=
      addContainerIds_adds [cId] idx (b.tooled (tools pos))
    -- the task of an item depends neither on the tool nor on what was collected
    have hrest : perContainerTasks pk (addContainerIds pk strategy [cId] idx
        (b.tooled (tools pos))) strategy = perContainerTasks pk b strategy := by
      show perContainerTasks pk (addContainerIds pk strategy [cId] idx
        (b.tooled (tools pos))).base strategy = _
      rw [hbase]
      rfl
    rw [perContainer, perContainer, flatten_cons, flatten_nil, append_nil,
      containerTasks_eq] at htasks
    rw [addContainerIdsOver, ih, htasks, hrest, append_assoc]
    rfl

theorem containerItems_congr {tool tool' : PidTool} {cId : String} {hostPid : ℤ}
    (h : tool (decodeContainerId cId).1 = .ok hostPid)
    (h' : tool' (decodeContainerId cId).1 = .ok hostPid) (idx : ℕ) :
    containerItems tool cId idx = containerItems tool' cId idx := by
  simp only [containerItems, h, h']

/-- The items of a position do not depend on the others. -/
theorem getElem?_perContainerItems (tools tools' : ℕ → PidTool) {cIds : List String} {i : ℕ}
    {cId : String} (hcId : cIds[i]? = some cId) (pos idx : ℕ) :
    ∃ idx', (perContainerItems tools cIds pos idx)[i]? =
        some (containerItems (tools (pos + i)) cId idx') ∧
      (perContainerItems tools' cIds pos idx)[i]? =
        some (containerItems (tools' (pos + i)) cId idx') := by
  induction cIds generalizing i pos idx with
  | nil => cases hcId
  | cons first rest ih =>
    cases i with
    | zero =>
      obtain rfl := Option.some.inj hcId
      exact ⟨idx, rfl, rfl⟩
    | succ i =>
      obtain ⟨idx', h, h'⟩ := ih hcId (pos + 1) (nextIdx first idx)
      rw [Nat.add_right_comm] at h h'
      exact ⟨idx', h, h'⟩

/-- **The tasks of a container do not depend on the other ones**, also with one tool for all of
them. Source: `addContainerIds`, `addContainerId` -/
theorem container_tasks_independent (pk : Packages) (b : WorkerTaskBuilder)
    (strategy : StrategyEntry) (tools tools' : ℕ → PidTool) :
    (addContainerIdsOver pk strategy tools strategy.containerIds 0 0 b).tasks =
        b.tasks ++ (perContainerTasks pk b strategy tools strategy.containerIds 0 0).flatten ∧
      (addContainerIdsOver pk strategy tools' strategy.containerIds 0 0 b).tasks =
        b.tasks ++ (perContainerTasks pk b strategy tools' strategy.containerIds 0 0).flatten ∧
      (∀ tool, (addContainerIds pk strategy strategy.containerIds 0 (b.tooled tool)).tasks =
        b.tasks ++
          (perContainerTasks pk b strategy (fun _ => tool) strategy.containerIds 0 0).flatten) ∧
      ∀ (i : ℕ) (cId : String) (hostPid : ℤ), strategy.containerIds[i]? = some cId →
        tools i (decodeContainerId cId).1 = .ok hostPid →
        tools' i (decodeContainerId cId).1 = .ok hostPid →
        ∃ tasks,
          (perContainerTasks pk b strategy tools strategy.containerIds 0 0)[i]? = some tasks ∧
          (perContainerTasks pk b strategy tools' strategy.containerIds 0 0)[i]? = some tasks := by
  refine ⟨addContainerIdsOver_tasks tools _ 0 0 b, addContainerIdsOver_tasks tools' _ 0 0 b,
    fun tool => ?_, ?_⟩
  · have hhost : (b.tooled tool).host.getContainerHostPid = tool := rfl
    rw [← addContainerIdsOver_host hhost _ 0, addContainerIdsOver_tasks]
    rfl
  intro i cId hostPid hcId hpid hpid'
  obtain ⟨idx, hitems, hitems'⟩ := getElem?_perContainerItems tools tools' hcId 0 0
  rw [Nat.zero_add] at hitems hitems'
  rw [containerItems_congr hpid' hpid] at hitems'
  refine ⟨(containerItems (tools i) cId idx).flatMap (itemTasks pk b strategy), ?_, ?_⟩
  · rw [perContainerTasks, List.getElem?_map, hitems]
    rfl
  · rw [perContainerTasks, List.getElem?_map, hitems']
    rfl

end WorkerTaskBuilder

end CloudProbe.Daemon
