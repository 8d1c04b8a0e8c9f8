import CloudProbe.Daemon.StrategyItems
import CloudProbe.Daemon.Syncer
import Mathlib.Algebra.BigOperators.Group.List.Basic

/-!
# The memory budget of the tasks

The daemon divides the memory limit by the number of items it reads off a response, and then builds
tasks by another walk over the same lists. A container id may name several interfaces: it counts as
one item and gives one task for each of them.
-/

namespace CloudProbe.Daemon

open List

variable {d : Setup} {host : Host} {res : SyncStrategyResponse} {activeInstances : List String}

/-! ## The budget -/

/-- The buffers of the tasks, in MB, without wrapping. -/
def ringMb (tasks : List TaskConfig) : ℕ := (tasks.map fun task => task.ringCfgMb.toNat).sum

structure WithinBudget (d : Setup) (res : SyncStrategyResponse) (activeInstances : List String)
    (tasks : List TaskConfig) : Prop where
  count : tasks.length ≤ res.numItems activeInstances
  limit : d.workerCfg.memory.policy = .autoNicBuffer →
    ringMb tasks ≤ (res.effectiveMemLimitMb d.workerCfg.memory.defaultLimitMb).toNat
  total : ∃ total, nicBufferTotalMb d.workerCfg.memory res activeInstances = .ok total ∧
    ringMb tasks ≤ total.toNat

/-- Whether the builder can make a task of an item; the number of the item does not matter.
Source: `worker_task_builder.go` `newTaskConfig` -/
def takes (d : Setup) (host : Host) (strategy : StrategyEntry) (item : TaskItem) : Bool :=
  ((startBuilder d host [] 0).newTaskConfig d.packages strategy item).toBool

/-- Whether the strategy passes its check, which is made with an interface `eth0`.
Source: `worker_task_builder.go` `addStrategy` -/
def takesStrategy (d : Setup) (host : Host) (strategy : StrategyEntry) : Bool :=
  takes d host strategy { typ := .interface, nicName := "eth0", obsIdx := 0 }

/-- How many of the interfaces that a container id names the builder takes: none when it has no id
or the process of the container is not found.
Source: `worker_task_builder.go` `addContainerIds` -/
def containerNics (d : Setup) (host : Host) (strategy : StrategyEntry) (cId : String) : ℕ :=
  let (containerId, nics) := decodeContainerId cId
  if containerId = "" then 0
  else
    match host.getContainerHostPid containerId with
    | .error _ => 0
    | .ok hostPid => nics.countP fun nic =>
      takes d host strategy (WorkerTaskBuilder.containerItem hostPid (nic, 0))

/-- Whether the builder takes the first interface of a virtual machine.
Source: `worker_task_builder.go` `addInstanceName` -/
def takesInstance (d : Setup) (host : Host) (strategy : StrategyEntry) (name : String) : Bool :=
  match host.getKvmInstanceNics name with
  | .error _ | .ok [] => false
  | .ok (nic :: _) => takes d host strategy
    { typ := .kvmInstance, nicName := nic, obsIdx := 0, dumpSubDirs := [nic] }

/-- The interfaces with a task beyond the first one of their container id. -/
def extraNics (d : Setup) (host : Host) (strategy : StrategyEntry) : ℕ :=
  if takesStrategy d host strategy then
    (strategy.containerIds.map fun cId => containerNics d host strategy cId - 1).sum
  else 0

/-- The items without a task: all of a refused strategy; else container ids with no interface taken,
interfaces not taken, and running virtual machines whose first interface is missing or not taken. -/
def idleItems (d : Setup) (host : Host) (activeInstances : List String) (strategy : StrategyEntry) :
    ℕ :=
  if takesStrategy d host strategy then
    if 0 < strategy.containerIds.length then
      strategy.containerIds.countP fun cId => containerNics d host strategy cId = 0
    else if 0 < strategy.interfaceNames.length then
      strategy.interfaceNames.countP fun name =>
        !takes d host strategy (WorkerTaskBuilder.interfaceItem (name, 0))
    else
      (strategy.instanceNames.filter activeInstances.contains).countP
        (!takesInstance d host strategy ·)
  else strategy.numItems activeInstances

def numTasks (d : Setup) (host : Host) (res : SyncStrategyResponse)
    (activeInstances : List String) : ℕ :=
  res.numItems activeInstances + (res.strategy.map (extraNics d host)).sum -
    (res.strategy.map (idleItems d host activeInstances)).sum

/-- **When the budget is kept**: the interfaces that get a task beyond the first one of their
container id are not more than the items that get none; and, with a fixed size, what is left of the
product of size and items when it wraps covers the tasks. -/
structure ItemsCover (d : Setup) (host : Host) (res : SyncStrategyResponse)
    (activeInstances : List String) : Prop where
  items : (res.strategy.map (extraNics d host)).sum ≤
    (res.strategy.map (idleItems d host activeInstances)).sum
  product : d.workerCfg.memory.policy = .fixedNicBuffer →
    d.workerCfg.memory.fixedBufferSizeMb.toNat * numTasks d host res activeInstances ≤
      d.workerCfg.memory.fixedBufferSizeMb.toNat * res.numItems activeInstances % 2 ^ 64

/-! ## Counting -/

theorem sum_add_countP_zero {α : Type} (n : α → ℕ) (xs : List α) :
    (xs.map n).sum + xs.countP (n · = 0) = xs.length + (xs.map (n · - 1)).sum := by
  induction xs with
  | nil => rfl
  | cons x xs ih =>
    rw [map_cons, sum_cons, countP_cons, length_cons, map_cons, sum_cons]
    by_cases hx : n x = 0
    · simp only [hx, decide_true, if_true]
      omega
    · simp only [hx, decide_false, Bool.false_eq_true, if_false]
      omega

namespace WorkerTaskBuilder

theorem toBool_newTaskConfig {pk : Packages} {b : WorkerTaskBuilder} {strategy : StrategyEntry}
    {item : TaskItem} :
    (b.newTaskConfig pk strategy item).toBool = true ↔
      ∃ args, strategyArgs pk strategy = .ok args ∧ validateStrategy strategy args = .ok () ∧
        checkNoFilter strategy args item = .ok () ∧
        (newOutput b.host b.daemonUUID strategy args item).toBool = true := by
  have hok {ε α : Type} (r : Except ε α) : r.toBool = true ↔ ∃ x, r = .ok x := by
    cases r <;> simp [Except.toBool]
  simp only [hok, newTaskConfig_eq_ok]
  constructor
  · rintro ⟨task, args, hargs, hvalid, hfilter, output, houtput, -⟩
    exact ⟨args, hargs, hvalid, hfilter, output, houtput⟩
  · rintro ⟨args, hargs, hvalid, hfilter, output, houtput⟩
    exact ⟨_, args, hargs, hvalid, hfilter, output, houtput, rfl⟩

end WorkerTaskBuilder

/-- Names of which each that `q` holds of gets one task or none. -/
theorem length_zipIdx_tasks {f : String × ℕ → List TaskConfig} {p q : String → Bool}
    (h : ∀ name i, (f (name, i)).length = if p name then 1 else 0) (names : List String) (i : ℕ) :
    (((names.zipIdx i).filter fun name => q name.1).map f).flatten.length +
      (names.filter q).countP (!p ·) = names.countP q := by
  induction names generalizing i with
  | nil => rfl
  | cons name names ih =>
    have hrest := ih (i + 1)
    have hname := h name i
    rw [zipIdx_cons, countP_cons, filter_cons, filter_cons]
    by_cases hq : q name = true
    · simp only [hq, if_true, map_cons, flatten_cons, length_append, hname, countP_cons]
      cases p name
      all_goals
        simp only [Bool.not_false, Bool.not_true, if_true, Bool.false_eq_true, if_false]
        omega
    · simp only [hq, Bool.false_eq_true, if_false]
      exact hrest

section

variable {buffSize : UInt64} {strategy : StrategyEntry}

/-- Neither the number of an item nor the size of the buffers decides whether it gets a task. -/
theorem length_itemTasks (item : TaskItem) (i : ℕ) :
    (WorkerTaskBuilder.itemTasks d.packages (startBuilder d host activeInstances buffSize) strategy
      { item with obsIdx := i }).length = if takes d host strategy item then 1 else 0 := by
  have hlength (r : Except String TaskConfig) :
      r.toOption.toList.length = if r.toBool then 1 else 0 := by cases r <;> rfl
  have houtput (args : StartupArgs) :
      (newOutput host d.daemonUUID strategy args { item with obsIdx := i }).toBool =
        (newOutput host d.daemonUUID strategy args item).toBool := by
    rw [newOutput, newOutput]
    cases strategy.packetChannelType <;> rfl
  rw [WorkerTaskBuilder.itemTasks, hlength]
  refine if_congr ?_ rfl rfl
  rw [takes, WorkerTaskBuilder.toBool_newTaskConfig, WorkerTaskBuilder.toBool_newTaskConfig]
  simp only [startBuilder, houtput]
  rfl

/-- A container gets a task for each interface that is taken. -/
theorem length_containerTasks (cId : String) (idx : ℕ) :
    (WorkerTaskBuilder.containerTasks d.packages (startBuilder d host activeInstances buffSize)
      strategy cId idx).length = containerNics d host strategy cId := by
  unfold WorkerTaskBuilder.containerTasks containerNics
  rcases decodeContainerId cId with ⟨containerId, nics⟩
  by_cases hid : containerId = ""
  · simp only [hid, if_true, length_nil]
  · simp only [hid, if_false]
    rw [show (startBuilder d host activeInstances buffSize).host = host from rfl]
    rcases host.getContainerHostPid containerId with err | hostPid
    · rfl
    · simp only
      induction nics generalizing idx with
      | nil => rfl
      | cons nic nics ih =>
        rw [zipIdx_cons, flatMap_cons, length_append, ih, countP_cons, Nat.add_comm]
        congr 1
        exact length_itemTasks (WorkerTaskBuilder.containerItem hostPid (nic, 0)) idx

theorem length_perContainer_tasks (cIds : List String) (idx : ℕ) :
    (WorkerTaskBuilder.perContainer d.packages (startBuilder d host activeInstances buffSize)
      strategy cIds idx).map List.length = cIds.map (containerNics d host strategy) := by
  induction cIds generalizing idx with
  | nil => rfl
  | cons cId rest ih =>
    rw [WorkerTaskBuilder.perContainer, map_cons, map_cons, length_containerTasks, ih]

variable (d host activeInstances buffSize strategy) in
/-- **The tasks of a strategy**: one for each item, with extra interfaces and without idle items. -/
theorem length_perItem_tasks :
    (WorkerTaskBuilder.perItem d.packages (startBuilder d host activeInstances buffSize)
        strategy).flatten.length + idleItems d host activeInstances strategy =
      strategy.numItems activeInstances + extraNics d host strategy := by
  have haccepts : (startBuilder d host activeInstances buffSize).accepts d.packages strategy =
      takesStrategy d host strategy := by
    rw [Bool.eq_iff_iff, WorkerTaskBuilder.accepts, takesStrategy, takes,
      WorkerTaskBuilder.toBool_newTaskConfig, WorkerTaskBuilder.toBool_newTaskConfig]
    rfl
  unfold WorkerTaskBuilder.perItem idleItems extraNics StrategyEntry.numItems
  rw [haccepts]
  by_cases htakes : takesStrategy d host strategy = true
  · simp only [htakes, if_true]
    have hnone (hids : ¬0 < strategy.containerIds.length) : strategy.containerIds = [] :=
      eq_nil_of_length_eq_zero (Nat.eq_zero_of_not_pos hids)
    split_ifs with hids hnames
    · rw [length_flatten, length_perContainer_tasks]
      exact sum_add_countP_zero _ _
    · have hcount := length_zipIdx_tasks (q := fun _ => true)
        (f := WorkerTaskBuilder.interfaceTasks d.packages
          (startBuilder d host activeInstances buffSize) strategy)
        (fun name => length_itemTasks (WorkerTaskBuilder.interfaceItem (name, 0)))
        strategy.interfaceNames 0
      rw [hnone hids]
      simpa using hcount
    · rw [hnone hids]
      refine length_zipIdx_tasks (p := takesInstance d host strategy) (fun name i => ?_)
        strategy.instanceNames 0
      unfold WorkerTaskBuilder.instanceTasks takesInstance
      rw [show (startBuilder d host activeInstances buffSize).host = host from rfl]
      rcases host.getKvmInstanceNics name with err | _ | ⟨nic, rest⟩
      · rfl
      · rfl
      · let item : TaskItem :=
          { typ := .kvmInstance, nicName := nic, obsIdx := 0, dumpSubDirs := [nic] }
        exact length_itemTasks item i
  · rw [if_neg htakes, if_neg htakes, if_neg htakes, flatten_replicate_nil]
    exact Nat.zero_add _

end

variable {buffSize : UInt64}

/-- Buffers of one size add up to their number. -/
theorem ringMb_of_untagged {tasks : List TaskConfig}
    (h : tasks.map TaskConfig.untagged =
      (itemTasksOf d host res activeInstances buffSize).flatten.map TaskConfig.untagged) :
    ringMb tasks = tasks.length * buffSize.toNat := by
  have hsize : ∀ task ∈ tasks, task.ringCfgMb = buffSize := by
    intro task htask
    have huntagged : task.untagged ∈
        (itemTasksOf d host res activeInstances buffSize).flatten.map TaskConfig.untagged := by
      rw [← h]
      exact mem_map_of_mem htask
    obtain ⟨made, hmade, heq⟩ := mem_map.mp huntagged
    obtain ⟨strategy, -, item, hmade⟩ := exists_item_of_mem_itemTasksOf hmade
    obtain ⟨args, -, -, -, output, -, rfl⟩ := WorkerTaskBuilder.newTaskConfig_eq_ok.mp hmade
    show task.untagged.ringCfgMb = buffSize
    rw [← heq]
    rfl
  unfold ringMb
  rw [map_congr_left fun task htask => congrArg UInt64.toNat (hsize task htask),
    map_const', sum_replicate_nat]

/-- How many tasks are built, and the rings they take together. -/
theorem length_and_ringMb {built : TaskBuildResult}
    (h : buildTasks d host res activeInstances = .ok built) :
    ∃ buffSize, getTaskBufferSizeMb d.workerCfg.memory res activeInstances = .ok buffSize ∧
      built.tasks.length + (res.strategy.map (idleItems d host activeInstances)).sum =
        res.numItems activeInstances + (res.strategy.map (extraNics d host)).sum ∧
      ringMb built.tasks = built.tasks.length * buffSize.toNat := by
  obtain ⟨buffSize, hsize, hassign⟩ := buildTasks_spec h
  have huntagged := WorkerTaskBuilder.assignFingerprints_untagged hassign
  refine ⟨buffSize, hsize, ?_, ringMb_of_untagged huntagged⟩
  have hlength := congrArg List.length huntagged
  rw [length_map, length_map] at hlength
  rw [hlength, itemTasksOf, SyncStrategyResponse.numItems]
  induction res.strategy with
  | nil => rfl
  | cons strategy rest ih =>
    have hfirst := length_perItem_tasks d host activeInstances buffSize strategy
    simp only [flatMap_cons, flatten_append, length_append, map_cons, sum_cons] at ih ⊢
    omega

/-! ## When it is kept -/

/-- The buffers of all items are within the limit. -/
theorem getTaskBufferSizeMb_auto {memory : MemoryConfig} (hpolicy : memory.policy = .autoNicBuffer)
    (hitems : res.numItems activeInstances < 2 ^ 63)
    (h : getTaskBufferSizeMb memory res activeInstances = .ok buffSize) :
    res.numItems activeInstances * buffSize.toNat ≤
      (res.effectiveMemLimitMb memory.defaultLimitMb).toNat := by
  have hn : (res.numItems activeInstances).toUInt64.toNat = res.numItems activeInstances :=
    UInt64.toNat_ofNat_of_lt' (lt_of_lt_of_le hitems (by decide))
  unfold getTaskBufferSizeMb at h
  rw [hpolicy] at h
  simp only at h
  split at h
  · rename_i hzero
    rw [hzero, Nat.zero_mul]
    exact Nat.zero_le _
  · split at h
    · cases h
    · obtain rfl := Except.ok.inj h
      rw [UInt64.toNat_div, hn]
      exact Nat.mul_div_le _ _

theorem nicBufferTotalMb_of_ok {memory : MemoryConfig}
    (h : getTaskBufferSizeMb memory res activeInstances = .ok buffSize) :
    ∃ total, nicBufferTotalMb memory res activeInstances = .ok total ∧
      total.toNat = buffSize.toNat * res.numItems activeInstances % 2 ^ 64 := by
  refine ⟨buffSize * (res.numItems activeInstances).toUInt64, ?_, ?_⟩
  · unfold nicBufferTotalMb
    rw [h]
    rfl
  · rw [UInt64.toNat_mul]
    show _ * (res.numItems activeInstances % 2 ^ 64) % 2 ^ 64 = _
    rw [Nat.mul_mod_mod]

/-- **Exactly when the tasks built are within the budget**, for items counted in an `int`. -/
theorem tasks_within_budget_iff {built : TaskBuildResult}
    (hitems : res.numItems activeInstances < 2 ^ 63)
    (h : buildTasks d host res activeInstances = .ok built) :
    WithinBudget d res activeInstances built.tasks ↔ ItemsCover d host res activeInstances := by
  obtain ⟨buffSize, hsize, hlength, hring⟩ := length_and_ringMb h
  obtain ⟨total, htotal, hproduct⟩ := nicBufferTotalMb_of_ok hsize
  have hfixed : d.workerCfg.memory.policy = .fixedNicBuffer →
      buffSize = d.workerCfg.memory.fixedBufferSizeMb := by
    intro hpolicy
    unfold getTaskBufferSizeMb at hsize
    rw [hpolicy] at hsize
    exact (Except.ok.inj hsize).symm
  constructor
  · intro hbudget
    have hcount := hbudget.count
    refine ⟨by omega, fun hpolicy => ?_⟩
    obtain ⟨total', htotal', hcover⟩ := hbudget.total
    obtain rfl := Except.ok.inj (htotal.symm.trans htotal')
    rw [hproduct, hring, Nat.mul_comm, hfixed hpolicy] at hcover
    rw [numTasks, ← hlength, Nat.add_sub_cancel]
    exact hcover
  · intro hcover
    have hcount : built.tasks.length ≤ res.numItems activeInstances := by
      have hitems := hcover.items
      omega
    have hle : built.tasks.length * buffSize.toNat ≤
      res.numItems activeInstances * buffSize.toNat := Nat.mul_le_mul_right _ hcount
    refine ⟨hcount, fun hpolicy => ?_, total, htotal, ?_⟩
    · rw [hring]
      exact hle.trans (getTaskBufferSizeMb_auto hpolicy hitems hsize)
    · rw [hring, hproduct]
      rcases d.memoryPolicy_eq with hpolicy | ⟨hpolicy, -⟩
      · -- the product is within the limit, which is a word
        have hlimit := getTaskBufferSizeMb_auto hpolicy hitems hsize
        have hword := (res.effectiveMemLimitMb d.workerCfg.memory.defaultLimitMb).toNat_lt
        rw [Nat.mul_comm buffSize.toNat, Nat.mod_eq_of_lt (hlimit.trans_lt hword)]
        exact hle
      · have hwrap := hcover.product hpolicy
        rw [← hfixed hpolicy, numTasks, ← hlength, Nat.add_sub_cancel] at hwrap
        rw [Nat.mul_comm]
        exact hwrap

def twoInterfaces : SyncStrategyResponse where
  daemonId := 1
  version := 1
  strategy := [{ containerIds := ["c1_eth0_eth1"], packetChannelType := .zmq, address := "10.0.0.1",
                 port := some 5555 }]

/-- A second container, which has no process. -/
def besideStopped : SyncStrategyResponse :=
  { twoInterfaces with
    memLimit := some 2048
    strategy := twoInterfaces.strategy.map fun strategy =>
      { strategy with containerIds := strategy.containerIds ++ ["c2_eth0"] } }

def containerHost : Host := { sampleOutside.host with
  getContainerHostPid := fun id => if id = "c1" then .ok 42 else .error "no such container" }

/-- A limit of 1024 MB is divided among the items. -/
def dividing : Setup where
  workerCfg := { sampleConfig .reload with memory := ⟨.autoNicBuffer, 1024, 0⟩ }
  packages := ⟨fun _ => ({}, none), fun labels =>
    if labels.lookup (utf8 "capturer.libpcap.interface") = some (utf8 "eth1") then
      "31656664-6335-6232-6564-336231313636"
    else "61346362-3237-6139-3832-303637353833"⟩
  daemonUUID := "6f9619ff-8b86-4d01-b42d-00cf4fc964ff"
  valid := rfl

theorem exists_built_of_measured {n mb : ℕ}
    (h : (buildTasks d host res activeInstances).toOption.map
      (fun built => (built.tasks.length, ringMb built.tasks)) = some (n, mb)) :
    ∃ built, buildTasks d host res activeInstances = .ok built ∧ built.tasks.length = n ∧
      ringMb built.tasks = mb := by
  rcases hbuilt : buildTasks d host res activeInstances with err | built
  all_goals rw [hbuilt] at h
  · cases h
  · obtain ⟨hlength, hring⟩ := Prod.mk.inj (Option.some.inj h)
    exact ⟨built, rfl, hlength, hring⟩

/-- The item without a task makes up for the second interface: two tasks of 1024 MB. -/
theorem tasks_within_budget_iff_beside_stopped :
    ∃ built, buildTasks dividing containerHost besideStopped [] = .ok built ∧
      built.tasks.length = 2 ∧ ringMb built.tasks = 2048 ∧
      WithinBudget dividing besideStopped [] built.tasks := by
  obtain ⟨built, hbuilt, hlength, hring⟩ :
      ∃ built, buildTasks dividing containerHost besideStopped [] = .ok built ∧
        built.tasks.length = 2 ∧ ringMb built.tasks = 2048 :=
    exists_built_of_measured (by decide +kernel)
  refine ⟨built, hbuilt, hlength, hring, (tasks_within_budget_iff (by decide +kernel) hbuilt).mpr
    ⟨?_, fun _ => ?_⟩⟩
  all_goals decide +kernel

/-- **Two interfaces of one container take twice the limit**: they are one item, and each gets all
of it. -/
theorem two_interfaces_over_budget :
    ∃ built, buildTasks dividing containerHost twoInterfaces [] = .ok built ∧
      twoInterfaces.numItems [] = 1 ∧ built.tasks.length = 2 ∧ ringMb built.tasks = 2048 ∧
      twoInterfaces.effectiveMemLimitMb dividing.workerCfg.memory.defaultLimitMb = 1024 ∧
      ¬ WithinBudget dividing twoInterfaces [] built.tasks := by
  obtain ⟨built, hbuilt, hlength, hring⟩ :
      ∃ built, buildTasks dividing containerHost twoInterfaces [] = .ok built ∧
        built.tasks.length = 2 ∧ ringMb built.tasks = 2048 :=
    exists_built_of_measured (by decide +kernel)
  refine ⟨built, hbuilt, by decide +kernel, hlength, hring, by decide +kernel, fun hbudget => ?_⟩
  have hcount := hbudget.count
  rw [hlength] at hcount
  exact absurd hcount (by decide +kernel)

end CloudProbe.Daemon
