import CloudProbe.Lib.Runs
import CloudProbe.Worker.Packet
import CloudProbe.Worker.Tasks

/-!
# The reload protocol

The main thread and the reload thread, with the two mailboxes between them. A mailbox holds a
pointer to the one message its sender owns, so it is full or empty here, and the contents are read
from the message when the receiver looks at it.

A step is one atomic access to a mailbox, a flag or the ring, with the private work around it; loops
that create and destroy capture tasks take one step for each task. What the threads do not control
is in the action.

* **Threads** (`mainStep`, `reloadStep`).
* **History** (`trace`, `past`): what was created, polled and destroyed, and a record of each
  reload. The threads never read it.

Sources without a file are in `task.c`.
-/

namespace CloudProbe.Worker

open CloudProbe.Lib

/-- A packet in a capture ring, with its position among all packets that arrived. -/
structure Arrival where
  seq : ℕ
  packet : Packet
  direct : PktDir
deriving DecidableEq

namespace Reload

/-- The task manager; `capacity` is the capacity of the allocator.
Source: `task_manager_t` -/
structure Mgr where
  executionModel : ExecutionModel
  capacity : ℕ
  config : Config
  tasks : List Task
  errors : List TaskError

/-- What main is waiting for.
Source: `reload_phase_t` -/
inductive Phase where
  | idle
  | awaitingSurvivors
  | awaitingNewTasks
  | awaitingReclaim
deriving DecidableEq

/-- A message with its contents; `none` is a null list.
Source: `reload_msg_t` -/
inductive Msg where
  | reqPlan (currentTasks : List Task)
  | rptSurvivors (survivorTasks : List Task)
  | reqBuild (oldTasks : List Task)
  | rptNewTasks (config : Config) (tasks : List Task) (errors : List TaskError)
  | reqReclaim (oldConfig : Config) (oldErrors : List TaskError) (newTasks : List Task)
  | rptReclaimed
  | rptError (restoreOldTasks : Option (List Task))

/-- What the reload thread remembers between messages.
Source: `reload_runtime_ctx_t` -/
structure Ctx where
  newConfig : Option Config
  currentTasks : Option (List Task)
  oldTasks : Option (List Task)

/-- Source: `reload_ctx_reset_cycle_state` -/
def Ctx.resetCycleState (ctx : Ctx) : Ctx := { ctx with currentTasks := none, oldTasks := none }

/-- Program points of the main thread.
Source: `main.c` `main`; `task.c` `task_manager_poll_packets`, `task_manager_reload_cycle`,
`task_manager_destroy` -/
inductive MainPc where
  /-- `while (!quit_signal)` -/
  | loop
  /-- polling the tasks `rest` -/
  | poll (rest : List Task)
  /-- between two calls in the body of the loop -/
  | body
  /-- `main_mbox_recv()` -/
  | recv
  /-- `switch (reload_phase)`, with a pointer to `reload_tx_msg` -/
  | handle
  /-- `reload_mbox_send(&main_tx_msg)`, then the phase is set -/
  | send (next : Phase)
  /-- `try_start_reload` -/
  | tryStart
  /-- `reload_mbox_send(&main_tx_msg)` in `try_start_reload` -/
  | sendPlan
  /-- `task_manager_stop_reload_thread`: clear the flag -/
  | stopReload
  /-- `pthread_join(reload_thread)` -/
  | joinReload
  /-- `task_manager_stop`: clear the flag of the output thread -/
  | stopOutput
  /-- `pthread_join(output_thread)` -/
  | joinOutput
  /-- the loop of `task_manager_destroy` -/
  | destroy
  | done

/-- Program points of the reload thread. Source: `task_manager_reload_loop`, `reload_do_plan`,
`reload_do_build`, `reload_do_reclaim`, `wait_output_drain_ring_response` -/
inductive ReloadPc where
  /-- `while (reload_thread_running)` -/
  | check
  /-- `reload_mbox_recv()` -/
  | recv
  /-- `switch (msg->type)`, with a pointer to `main_tx_msg` -/
  | dispatch
  /-- parse, validate, collect -/
  | plan
  /-- the loop of `build_full_task_set`, before entry `i` -/
  | build (i : ℕ) (rest : List TaskConfig) (tasks : List Task) (errors : List TaskError)
  /-- its `error:` label, with `rest` to go -/
  | undo (rest : List Task)
  /-- set `output_drain_ring_request` -/
  | drainRequest
  /-- `while (reload_thread_running)` of the wait for the drain -/
  | waitRunning
  /-- `if (output_drain_ring_response)` -/
  | waitResponse
  /-- clear `output_drain_ring_response` -/
  | drainAck
  /-- the loop of `reclaim_old_resources`, with `rest` to go -/
  | reclaim (rest : List Task)
  /-- fill `reload_tx_msg` with `m`; the handler leaves `after` in the context -/
  | report (m : Msg) (after : Ctx)
  /-- `main_mbox_send(&reload_tx_msg)` -/
  | send (after : Ctx)
  | exited

inductive Event where
  | created (t : CaptureTask)
  | destroyed (t : CaptureTask)
  | polled (t : CaptureTask) (packets : List Arrival)
  /-- a branch that logs an unexpected message was taken -/
  | unexpected
deriving DecidableEq

def Event.created? : Event → Option CaptureTask
  | .created t => some t
  | _ => none

def Event.destroyed? : Event → Option CaptureTask
  | .destroyed t => some t
  | _ => none

def createdIn (trace : List Event) : List CaptureTask := trace.filterMap Event.created?

def destroyedIn (trace : List Event) : List CaptureTask := trace.filterMap Event.destroyed?

@[simp] theorem createdIn_append (l l' : List Event) :
    createdIn (l ++ l') = createdIn l ++ createdIn l' := List.filterMap_append

@[simp] theorem destroyedIn_append (l l' : List Event) :
    destroyedIn (l ++ l') = destroyedIn l ++ destroyedIn l' := List.filterMap_append

/-- How a reload ended, and the state of the manager then. -/
inductive Outcome where
  | planError (after : Mgr)
  | buildError (after : Mgr)
  | completed (after : Mgr)

/-- The history of one reload, from `REQ_PLAN` on; `config` is set when planning succeeded. -/
structure Record where
  before : Mgr
  config : Option Config
  created : List CaptureTask
  destroyed : List CaptureTask

structure Core where
  mgr : Mgr
  phase : Phase
  reload : ReloadPc
  ctx : Ctx
  /-- `main_tx_msg` -/
  mainTx : Msg
  /-- `reload_tx_msg` -/
  reloadTx : Msg
  /-- `main_mbox` points to `reload_tx_msg` -/
  mainMbox : Bool
  /-- `reload_mbox` points to `main_tx_msg` -/
  reloadMbox : Bool
  /-- history of the reload in progress -/
  current : Option Record

structure State extends Core where
  main : MainPc
  /-- `reload_signal` -/
  signal : Bool
  /-- `quit_signal` -/
  quit : Bool
  /-- `reload_thread_running` -/
  running : Bool
  /-- identity of the next capture task -/
  nextId : ℕ
  /-- history: a signal was raised after the last `REQ_PLAN` -/
  raised : Bool
  trace : List Event
  past : List (Record × Outcome)

/-! ### The main thread -/

/-- What a step of the main thread does not control: the packets a poll finds, whether the loop runs
another reload cycle, and whether the output thread has returned. -/
structure MainChoice where
  packets : List Arrival
  cycle : Bool
  outputExited : Bool

def State.finish (s : State) (outcome : Mgr → Outcome) (mgr : Mgr) : State :=
  { s with
    mgr := mgr
    current := none
    past := s.past ++ (s.current.map fun r => (r, outcome mgr)).toList }

/-- The manager after the commit: the allocator is resized when both the running and the new
configuration use the pipeline; a capacity that does not change is set again.
Source: `main_handle_new_tasks` -/
def Mgr.commit (mgr : Mgr) (config : Config) (tasks : List Task) (errors : List TaskError) : Mgr :=
  { mgr with
    config := config
    tasks := tasks
    errors := errors
    capacity :=
      if mgr.executionModel = .pipeline ∧ config.executionModel = .pipeline then
        config.bufferSizeMb * 1024 * 1024
      else mgr.capacity }

def restoreFullListOnBuildFailure (mgr : Mgr) : Option (List Task) → Mgr
  | none => mgr
  | some tasks => { mgr with tasks := tasks }

def mainHandleSurvivors (s : State) : Msg → State
  | .rptError _ =>
    { s.finish .planError s.mgr with phase := .idle, main := .tryStart }
  | .rptSurvivors survivorTasks =>
    { s with
      mgr := { s.mgr with tasks := survivorTasks }
      mainTx := .reqBuild s.mgr.tasks
      main := .send .awaitingNewTasks }
  | _ => { s with phase := .idle, main := .tryStart, trace := s.trace ++ [.unexpected] }

def mainHandleNewTasks (s : State) : Msg → State
  | .rptError restoreOldTasks =>
    { s.finish .buildError (restoreFullListOnBuildFailure s.mgr restoreOldTasks) with
      phase := .idle, main := .tryStart }
  | .rptNewTasks config tasks errors =>
    { s with
      mgr := s.mgr.commit config tasks errors
      mainTx := .reqReclaim s.mgr.config s.mgr.errors tasks
      main := .send .awaitingReclaim }
  | _ => { s with phase := .idle, main := .tryStart, trace := s.trace ++ [.unexpected] }

def mainHandleReclaimed (s : State) : Msg → State
  | .rptError _ => { s with phase := .idle, main := .tryStart }
  | .rptReclaimed => { s.finish .completed s.mgr with phase := .idle, main := .tryStart }
  | _ => { s with phase := .idle, main := .tryStart, trace := s.trace ++ [.unexpected] }

/-- Source: `task_manager_reload_cycle`, the switch -/
def mainHandle (s : State) : State :=
  match s.phase with
  | .awaitingSurvivors => mainHandleSurvivors s s.reloadTx
  | .awaitingNewTasks => mainHandleNewTasks s s.reloadTx
  | .awaitingReclaim => mainHandleReclaimed s s.reloadTx
  | .idle => { s with main := .tryStart, trace := s.trace ++ [.unexpected] }

/-- Source: `try_start_reload`, up to the send -/
def tryStartReload (s : State) : State :=
  if s.phase ≠ .idle then { s with main := .body }
  else if s.signal then
    { s with
      signal := false
      mainTx := .reqPlan s.mgr.tasks
      main := .sendPlan
      current := some { before := s.mgr, config := none, created := [], destroyed := [] } }
  else { s with main := .body }

/-- Source: `main.c` `main` -/
def mainStep (s : State) (c : MainChoice) : Option State :=
  match s.main with
  | .loop => some { s with main := if s.quit then .stopReload else .poll s.mgr.tasks }
  | .poll [] => some { s with main := .body }
  | .poll (t :: rest) =>
    some { s with main := .poll rest, trace := s.trace ++ [.polled t.task c.packets] }
  | .body => some { s with main := if c.cycle then .recv else .loop }
  | .recv =>
    some { s with main := if s.mainMbox then .handle else .tryStart, mainMbox := false }
  | .handle => some (mainHandle s)
  | .send next => some { s with reloadMbox := true, phase := next, main := .tryStart }
  | .tryStart => some (tryStartReload s)
  | .sendPlan =>
    some { s with
      reloadMbox := true, phase := .awaitingSurvivors, main := .body, raised := false }
  | .stopReload => some { s with running := false, main := .joinReload }
  | .joinReload =>
    match s.reload with
    | .exited => some { s with main := .stopOutput }
    | _ => none
  | .stopOutput => some { s with main := .joinOutput }
  | .joinOutput => if c.outputExited then some { s with main := .destroy } else none
  | .destroy =>
    match s.mgr.tasks with
    | [] => some { s with main := .done }
    | t :: rest =>
      some { s with
        mgr := { s.mgr with tasks := rest }, trace := s.trace ++ [.destroyed t.task] }
  | .done => none

/-! ### The reload thread -/

/-- What a step of the reload thread does not control. -/
structure ReloadChoice where
  /-- the parsed file, if it can be read and parsed -/
  parsed : Option Config
  /-- the task lists can be allocated -/
  listOk : Bool
  /-- the wrapper for entry `i` can be allocated -/
  alloc : ℕ → Bool
  entry : EntryOutcome
  /-- the value of `output_drain_ring_response` -/
  response : Bool

def State.logCreated (s : State) (t : CaptureTask) : State :=
  { s with
    trace := s.trace ++ [.created t]
    current := s.current.map fun r => { r with created := r.created ++ [t] } }

def State.logDestroyed (s : State) (t : CaptureTask) : State :=
  { s with
    trace := s.trace ++ [.destroyed t]
    current := s.current.map fun r => { r with destroyed := r.destroyed ++ [t] } }

/-- The handler of `REQ_PLAN` after it has stored the task list.
Source: `reload_do_plan` -/
def reloadDoPlan (s : State) (c : ReloadChoice) : State :=
  let failed := { s with reload := .report (.rptError none) s.ctx.resetCycleState }
  match c.parsed with
  | none => failed
  | some config =>
    if validateFingerprints config.tasks then
      match if c.listOk then collectSurvivingTasks c.alloc (s.ctx.currentTasks.getD []) 0
          config.tasks else none with
      | none => failed
      | some survivors =>
        { s with
          reload := .report (.rptSurvivors survivors) { s.ctx with newConfig := some config }
          ctx := { s.ctx with newConfig := some config }
          current := s.current.map fun r => { r with config := some config } }
    else failed

/-- The handler of `REQ_BUILD` when the build failed: what it reports and leaves behind.
Source: `reload_do_build` -/
def buildFailed (s : State) : State :=
  { s with
    reload :=
      .report (.rptError s.ctx.oldTasks) { s.ctx.resetCycleState with newConfig := none } }

/-- One round of the loop of `build_full_task_set`, or its end.
Source: `build_full_task_set`, `reload_do_build` -/
def buildStep (s : State) (c : ReloadChoice) (i : ℕ) (rest : List TaskConfig) (tasks : List Task)
    (errors : List TaskError) : Option State :=
  match s.ctx.newConfig with
  | none => none
  | some config =>
    match rest with
    | [] =>
      some { s with
        reload := .report (.rptNewTasks config tasks errors) { s.ctx with newConfig := none } }
    | task :: rest =>
      match buildEntry s.nextId config.tasks (s.ctx.currentTasks.getD []) i task c.entry with
      | .task none t => some { s with reload := .build (i + 1) rest (tasks ++ [t]) errors }
      | .task (some created) t =>
        some { s.logCreated created with
          nextId := s.nextId + 1, reload := .build (i + 1) rest (tasks ++ [t]) errors }
      | .error e => some { s with reload := .build (i + 1) rest tasks (errors ++ [e]) }
      | .abort none => some { s with reload := .undo tasks }
      | .abort (some created) =>
        some { (s.logCreated created).logDestroyed created with
          nextId := s.nextId + 1, reload := .undo tasks }

/-- A step of the loop that destroys the capture tasks a failed build created.
Source: `build_full_task_set`, label `error` -/
def undoStep (s : State) : List Task → State
  | [] => buildFailed s
  | t :: rest =>
    let s' := if keyIn Task.fingerprint (s.ctx.currentTasks.getD []) t then s
      else s.logDestroyed t.task
    { s' with reload := .undo rest }

/-- A step of the loop that destroys the old tasks that are not used any more.
Source: `reclaim_old_resources` -/
def reclaimStep (s : State) (newTasks : List Task) : List Task → State
  | [] =>
    { s with
      ctx := s.ctx.resetCycleState
      reload := .report .rptReclaimed s.ctx.resetCycleState }
  | t :: rest =>
    let s' := if unusedIn newTasks t then s.logDestroyed t.task else s
    { s' with reload := .reclaim rest }

/-- The switch of the reload thread on the type of the message.
Source: `task_manager_reload_loop` -/
def reloadDispatch (s : State) (c : ReloadChoice) : State :=
  match s.mainTx with
  | .reqPlan currentTasks =>
    { s with ctx := { s.ctx with currentTasks := some currentTasks }, reload := .plan }
  | .reqBuild oldTasks =>
    let s' := { s with ctx := { s.ctx with oldTasks := some oldTasks } }
    if c.listOk then
      { s' with reload := .build 0 ((s.ctx.newConfig.map fun k => k.tasks).getD []) [] [] }
    else buildFailed s'
  | .reqReclaim _ _ _ =>
    -- `drain_output_ring` was set from the execution model, which never changes
    if s.mgr.executionModel = .pipeline then { s with reload := .drainRequest }
    else { s with reload := .reclaim (s.ctx.oldTasks.getD []) }
  | .rptError _ =>
    -- `reload_handle_error_from_main`
    { s with ctx := { s.ctx.resetCycleState with newConfig := none }, reload := .check }
  | _ => { s with reload := .check, trace := s.trace ++ [.unexpected] }

def Msg.newTasks : Msg → List Task
  | .reqReclaim _ _ newTasks => newTasks
  | _ => []

/-- Source: `task_manager_reload_loop` -/
def reloadStep (s : State) (c : ReloadChoice) : Option State :=
  match s.reload with
  | .check =>
    -- leaving the loop frees `new_config` and nothing else
    some { s with reload := if s.running then .recv else .exited }
  | .recv =>
    some { s with reload := if s.reloadMbox then .dispatch else .check, reloadMbox := false }
  | .dispatch => some (reloadDispatch s c)
  | .plan => some (reloadDoPlan s c)
  | .build i rest tasks errors => buildStep s c i rest tasks errors
  | .undo rest => some (undoStep s rest)
  | .drainRequest => some { s with reload := .waitRunning }
  | .waitRunning =>
    -- a stop ends the wait, and the reclaim goes on without the drain
    some { s with
      reload := if s.running then .waitResponse else .reclaim (s.ctx.oldTasks.getD []) }
  | .waitResponse =>
    some { s with reload := if c.response then .drainAck else .waitRunning }
  | .drainAck => some { s with reload := .reclaim (s.ctx.oldTasks.getD []) }
  | .reclaim rest => some (reclaimStep s s.mainTx.newTasks rest)
  | .report m after => some { s with reloadTx := m, reload := .send after }
  | .send after => some { s with mainMbox := true, ctx := after, reload := .check }
  | .exited => none

/-! ### Runs -/

inductive Act where
  | main (c : MainChoice)
  | reload (c : ReloadChoice)
  /-- `task_manager_reload_signal` -/
  | signal
  /-- `signal_quit_handler` -/
  | quit

def step (s : State) : Act → Option State
  | .main c => mainStep s c
  | .reload c => reloadStep s c
  | .signal => some { s with signal := true, raised := true }
  | .quit => some { s with quit := true }

/-- The state when both threads run: every entry of the first configuration was tried once. Source:
`main`, `task_manager_new`, `task_manager_start_reload_thread` -/
def initial (config : Config) (create : ℕ → Except String Unit) : State :=
  let built := taskManagerNew config.tasks create 0 config.tasks
  { mgr :=
      { executionModel := config.executionModel
        capacity :=
          if config.executionModel = .pipeline then config.bufferSizeMb * 1024 * 1024 else 0
        config := config
        tasks := built.1
        errors := built.2 }
    phase := .idle
    main := .loop
    reload := .check
    ctx := { newConfig := none, currentTasks := none, oldTasks := none }
    mainTx := .reqPlan []
    reloadTx := .reqPlan []
    mainMbox := false
    reloadMbox := false
    signal := false
    quit := false
    running := true
    nextId := config.tasks.length
    raised := false
    trace := (captureTasks built.1).map .created
    current := none
    past := [] }

end Reload

end CloudProbe.Worker
