import Mathlib.Logic.Function.Basic
import CloudProbe.Worker.Pipeline
import CloudProbe.Worker.ReloadOrder

/-!
# The whole worker: main, reload and output thread

* The ring of the pipeline is a queue here (`ring`): `pipeline_refines_rtc` shows that the circular
  buffer is one, of at most `size - 1` messages.
* A poll takes packets off the capture ring of the task (`kernel`) and hands them over one by one:
  to the outputs in run to completion, to the ring in the pipeline.
* The output thread pops and sends, and answers a request to drain the ring.
* The worker's runs are runs of the reload protocol (`step_ctl`), with the packets of each poll and
  the answers of the output thread filled in.

What the calls count is in `Counting`.
-/

namespace CloudProbe.Worker

open CloudProbe.Lib Option

namespace Threads

open Reload (Event createdIn destroyedIn)

def numOutputs (t : CaptureTask) : ℕ := t.config.outputs.length

/-- Program points of the output thread.
Source: `task.c` `task_manager_output_loop`, `task_manager_output_drain_ring` -/
inductive OutputPc where
  /-- `while (output_thread_running)` -/
  | loop
  /-- `if (output_drain_ring_request)` -/
  | request
  /-- `used = spsc_ring_used(ring)`; `last` for the drain after the main loop -/
  | used (last : Bool)
  /-- the loop of the drain, with `left` rounds to go -/
  | drain (last : Bool) (left : ℕ)
  /-- clear `output_drain_ring_request` -/
  | clearRequest
  /-- set `output_drain_ring_response` -/
  | setResponse
  /-- `spsc_ring_pop` in the main loop -/
  | pop
  /-- `output_send_pkt_msg`, before the call to output `i`, and the release of the message -/
  | send (k : Pipeline.PopFor) (m : RingMsg CaptureTask) (i : ℕ)
  | exited

def OutputPc.isExited : OutputPc → Bool
  | .exited => true
  | _ => false

/-- A call an output gets: for a message, or when its task is destroyed.
Source: `task.c` `output_send_pkt_msg`, `capture_task_destroy` -/
inductive Call where
  | sent (c : Sent CaptureTask)
  | destroyed (t : CaptureTask)

structure State where
  ctl : Reload.State
  ring : List (RingMsg CaptureTask)
  out : OutputPc
  /-- `output_thread_running` -/
  outputRunning : Bool
  /-- `output_drain_ring_request` -/
  request : Bool
  /-- `output_drain_ring_response` -/
  response : Bool
  /-- what the capturer of the current poll hands to the callbacks, oldest first -/
  handing : List (CaptureEvent CaptureTask)
  /-- the capture ring of each task, by identity -/
  kernel : ℕ → List Arrival
  /-- the packets that arrived so far -/
  arrived : ℕ
  /-- history: how many packets had arrived when a task was created, by identity -/
  born : ℕ → ℕ
  /-- history: the calls of all outputs, oldest first -/
  calls : List Call

/-- Run to completion or pipeline; the model never changes. -/
def State.pipeline (s : State) : Prop := s.ctl.mgr.executionModel = .pipeline

instance (s : State) : Decidable s.pipeline :=
  inferInstanceAs (Decidable (s.ctl.mgr.executionModel = .pipeline))

/-! ### Capture rings -/

/-- A capture task is open from its creation to its destruction. -/
def State.isOpen (s : State) (id : ℕ) : Bool :=
  (createdIn s.ctl.trace).any (·.id = id) && !(destroyedIn s.ctl.trace).any (·.id = id)

/-- The protocol moves to `ctl`, and the rest follows its new events: a new task has an empty
capture ring, a destroyed one has none, and its outputs are destroyed. Source: `task.c`
`capture_task_new`, `capture_task_destroy` -/
def State.follow (s : State) (ctl : Reload.State) : State :=
  let events := ctl.trace.drop s.ctl.trace.length
  { s with
    ctl := ctl
    kernel := fun id =>
      if (createdIn events ++ destroyedIn events).any (·.id = id) then [] else s.kernel id
    born := fun id => if (createdIn events).any (·.id = id) then s.arrived else s.born id
    calls := s.calls ++ (destroyedIn events).map .destroyed }

/-! ### The three threads -/

/-- What a step of the main thread does not control: how many packets a poll takes, whether and when
the capturer calls the heartbeat callback, and whether the loop runs another reload cycle. -/
structure MainChoice where
  take : ℕ
  heartbeat : Option ℤ
  cycle : Bool

/-- The packets the next poll takes off the capture ring. -/
def State.found (s : State) (c : MainChoice) : List Arrival :=
  match s.ctl.main with
  | .poll (t :: _) => (s.kernel t.task.id).take c.take
  | _ => []

/-- The callback invocations of a poll of `t`.
Source: `libpcap.c` `libpcap_capture_packets` -/
def pollEvents (t : CaptureTask) (packets : List Arrival) (heartbeat : Option ℤ) :
    List (CaptureEvent CaptureTask) :=
  packets.map (fun a => ⟨t, .packet a.packet a.direct⟩) ++
    heartbeat.toList.map fun now => ⟨t, .heartbeat now⟩

/-- A callback: straight to the outputs, or onto the ring, where a full ring makes it wait.
Source: `task.c` `rtc_capture_task_packet_cb`, `pipeline_capture_task_packet_cb` -/
def State.handOver (s : State) (e : CaptureEvent CaptureTask)
    (rest : List (CaptureEvent CaptureTask)) : Option State :=
  if s.pipeline then
    if e.tooShort then some { s with handing := rest }
    else if s.ring.length + 1 < Pipeline.ringSlots then
      some { s with handing := rest, ring := s.ring ++ [e.toMsg] }
    else none
  else some { s with handing := rest, calls := s.calls ++ (rtcEvent numOutputs e).map .sent }

/-- A step of the main thread: the next callback of the poll it is in, or a step of the protocol.
Source: `main.c` `main` -/
def mainStep (s : State) (c : MainChoice) : Option State :=
  match s.handing with
  | e :: rest => s.handOver e rest
  | [] =>
    match Reload.mainStep s.ctl ⟨s.found c, c.cycle, s.out.isExited⟩ with
    | none => none
    | some ctl =>
      match s.ctl.main with
      | .poll (t :: _) =>
        some { s.follow ctl with
          handing := pollEvents t.task (s.found c) c.heartbeat
          kernel := Function.update s.kernel t.task.id
            ((s.kernel t.task.id).drop c.take) }
      | .stopOutput => some { s.follow ctl with outputRunning := false }
      | _ => some (s.follow ctl)

/-- A step of the reload thread; it reads and writes the flags of the drain.
Source: `task.c` `reload_do_reclaim`, `wait_output_drain_ring_response` -/
def reloadStep (s : State) (c : Reload.ReloadChoice) : Option State :=
  match Reload.reloadStep s.ctl { c with response := s.response } with
  | none => none
  | some ctl =>
    match s.ctl.reload with
    | .drainRequest => some { s.follow ctl with request := true }
    | .drainAck => some { s.follow ctl with response := false }
    | _ => some (s.follow ctl)

def afterMsg : Pipeline.PopFor → OutputPc
  | .mainLoop => .loop
  | .drain last left => .drain last left

def afterDrain (last : Bool) : OutputPc := if last then .exited else .clearRequest

/-- Source: `task.c` `task_manager_output_loop`, `task_manager_output_drain_ring`,
`output_send_pkt_msg` -/
def outputStep (s : State) : Option State :=
  match s.out with
  | .loop => some { s with out := if s.outputRunning then .request else .used true }
  | .request => some { s with out := if s.request then .used false else .pop }
  | .used last => some { s with out := .drain last s.ring.length }
  | .drain last 0 => some { s with out := afterDrain last }
  | .drain last (left + 1) =>
    match s.ring with
    | [] => some { s with out := afterDrain last }
    | m :: ring => some { s with ring := ring, out := .send (.drain last left) m 0 }
  | .clearRequest => some { s with request := false, out := .setResponse }
  | .setResponse => some { s with response := true, out := .pop }
  | .pop =>
    match s.ring with
    | [] => some { s with out := .loop }
    | m :: ring => some { s with ring := ring, out := .send .mainLoop m 0 }
  | .send k m i =>
    match (outputSendPktMsg numOutputs m)[i]? with
    | some c => some { s with calls := s.calls ++ [.sent c], out := .send k m (i + 1) }
    | none => some { s with out := afterMsg k }
  | .exited => none

/-- A packet arrives: it goes to the capture rings of the open tasks that `reaches` names, with the
direction judged for each. -/
def State.arrive (s : State) (p : Packet) (reaches : ℕ → Option PktDir) : State :=
  { s with
    arrived := s.arrived + 1
    kernel := fun id =>
      match if s.isOpen id then reaches id else none with
      | some direct => s.kernel id ++ [⟨s.arrived, p, direct⟩]
      | none => s.kernel id }

/-! ### Runs -/

inductive Act where
  | main (c : MainChoice)
  | reload (c : Reload.ReloadChoice)
  | output
  | signal
  | quit
  | arrive (p : Packet) (reaches : ℕ → Option PktDir)

def step (s : State) : Act → Option State
  | .main c => mainStep s c
  | .reload c => reloadStep s c
  | .output => outputStep s
  | .signal => some { s with ctl := { s.ctl with signal := true, raised := true } }
  | .quit => some { s with ctl := { s.ctl with quit := true } }
  | .arrive p reaches => some (s.arrive p reaches)

/-- The state when the threads run; there is no output thread in run to completion.
Source: `main.c` `main`, `task.c` `task_manager_start` -/
def initial (config : Config) (create : ℕ → Except String Unit) : State where
  ctl := Reload.initial config create
  ring := []
  out := if config.executionModel = .pipeline then .loop else .exited
  outputRunning := decide (config.executionModel = .pipeline)
  request := false
  response := false
  handing := []
  kernel := fun _ => []
  arrived := 0
  born := fun _ => 0
  calls := []

/-! ### The protocol inside the worker -/

variable {s s' : State}

@[simp] theorem State.follow_ctl (s : State) (ctl : Reload.State) : (s.follow ctl).ctl = ctl := rfl

/-- A step of main hands over an event, or is one of the protocol. -/
theorem mainStep_cases {c : MainChoice} (hs : mainStep s c = some s') :
    (∃ e rest, s.handing = e :: rest ∧ s.handOver e rest = some s') ∨
      (s.handing = [] ∧ ∃ ctl,
        Reload.mainStep s.ctl ⟨s.found c, c.cycle, s.out.isExited⟩ = some ctl ∧
        ((∃ t rest, s.ctl.main = .poll (t :: rest) ∧
            s' = { s.follow ctl with
              handing := pollEvents t.task (s.found c) c.heartbeat
              kernel := Function.update s.kernel t.task.id
                ((s.kernel t.task.id).drop c.take) }) ∨
          (s.ctl.main = .stopOutput ∧ s' = { s.follow ctl with outputRunning := false }) ∨
          ((∀ t rest, s.ctl.main ≠ .poll (t :: rest)) ∧ s.ctl.main ≠ .stopOutput ∧
            s' = s.follow ctl))) := by
  unfold mainStep at hs
  cases hhand : s.handing with
  | cons e rest =>
    rw [hhand] at hs
    exact Or.inl ⟨e, rest, rfl, hs⟩
  | nil =>
    right
    rw [hhand] at hs
    simp only at hs
    split at hs
    · cases hs
    · rename_i ctl hctl
      refine ⟨rfl, ctl, hctl, ?_⟩
      split at hs
      · rename_i t rest hmain
        exact Or.inl ⟨t, rest, hmain, (some.inj hs).symm⟩
      · rename_i hmain
        exact Or.inr (Or.inl ⟨hmain, (some.inj hs).symm⟩)
      · rename_i hpoll hstop
        exact Or.inr (Or.inr ⟨hpoll, hstop, (some.inj hs).symm⟩)

/-- A step of the reload thread: the drain request, its end, or another. -/
theorem reloadStep_cases {c : Reload.ReloadChoice} (hs : reloadStep s c = some s') :
    ∃ ctl, Reload.reloadStep s.ctl { c with response := s.response } = some ctl ∧
      ((s.ctl.reload = .drainRequest ∧ s' = { s.follow ctl with request := true }) ∨
        (s.ctl.reload = .drainAck ∧ s' = { s.follow ctl with response := false }) ∨
        (s.ctl.reload ≠ .drainRequest ∧ s.ctl.reload ≠ .drainAck ∧ s' = s.follow ctl)) := by
  unfold reloadStep at hs
  split at hs
  · cases hs
  · rename_i ctl hctl
    refine ⟨ctl, hctl, ?_⟩
    split at hs
    · rename_i hpc
      exact Or.inl ⟨hpc, (some.inj hs).symm⟩
    · rename_i hpc
      exact Or.inr (Or.inl ⟨hpc, (some.inj hs).symm⟩)
    · rename_i hreq hack
      exact Or.inr (Or.inr ⟨hreq, hack, (some.inj hs).symm⟩)

variable {e : CaptureEvent CaptureTask}

theorem handOver_same {rest : List (CaptureEvent CaptureTask)} (hs : s.handOver e rest = some s') :
    s'.ctl = s.ctl ∧ s'.kernel = s.kernel ∧ s'.arrived = s.arrived ∧ s'.born = s.born := by
  unfold State.handOver at hs
  split_ifs at hs <;> cases hs <;> exact ⟨rfl, rfl, rfl, rfl⟩

/-- What a step of the output thread does, by where the thread is. -/
inductive OutputMoves (s : State) : State → Prop where
  | looks (hpc : s.out = .loop) : OutputMoves s { s with out := .request }
  | leaves (hpc : s.out = .loop) (hstop : s.outputRunning = false) :
      OutputMoves s { s with out := .used true }
  | asked (hpc : s.out = .request) (hreq : s.request = true) :
      OutputMoves s { s with out := .used false }
  | unasked (hpc : s.out = .request) : OutputMoves s { s with out := .pop }
  | counts (last : Bool) (hpc : s.out = .used last) :
      OutputMoves s { s with out := .drain last s.ring.length }
  | drained (last : Bool) (left : ℕ) (hpc : s.out = .drain last left)
      (hnone : left = 0 ∨ s.ring = []) : OutputMoves s { s with out := afterDrain last }
  | drains (last : Bool) (left : ℕ) (m : RingMsg CaptureTask) (ring : List (RingMsg CaptureTask))
      (hpc : s.out = .drain last (left + 1)) (hring : s.ring = m :: ring) :
      OutputMoves s { s with ring := ring, out := .send (.drain last left) m 0 }
  | clears (hpc : s.out = .clearRequest) :
      OutputMoves s { s with request := false, out := .setResponse }
  | answers (hpc : s.out = .setResponse) : OutputMoves s { s with response := true, out := .pop }
  | misses (hpc : s.out = .pop) : OutputMoves s { s with out := .loop }
  | pops (m : RingMsg CaptureTask) (ring : List (RingMsg CaptureTask)) (hpc : s.out = .pop)
      (hring : s.ring = m :: ring) :
      OutputMoves s { s with ring := ring, out := .send .mainLoop m 0 }
  | calls (k : Pipeline.PopFor) (m : RingMsg CaptureTask) (i : ℕ) (c : Sent CaptureTask)
      (hpc : s.out = .send k m i) (hc : (outputSendPktMsg numOutputs m)[i]? = some c) :
      OutputMoves s { s with calls := s.calls ++ [.sent c], out := .send k m (i + 1) }
  | sent (k : Pipeline.PopFor) (m : RingMsg CaptureTask) (i : ℕ) (hpc : s.out = .send k m i) :
      OutputMoves s { s with out := afterMsg k }

/-- **Steps of the output thread.** What is proved about them goes through these cases. -/
theorem outputStep_moves (hs : outputStep s = some s') : OutputMoves s s' := by
  unfold outputStep at hs
  split at hs
  next hpc =>
    obtain rfl := some.inj hs
    split_ifs with hrun
    · exact .looks hpc
    · exact .leaves hpc (by simpa using hrun)
  next hpc =>
    obtain rfl := some.inj hs
    split_ifs with hreq
    · exact .asked hpc hreq
    · exact .unasked hpc
  next last hpc =>
    obtain rfl := some.inj hs
    exact .counts last hpc
  next last hpc =>
    obtain rfl := some.inj hs
    exact .drained last 0 hpc (.inl rfl)
  next last left hpc =>
    split at hs
    next hring =>
      obtain rfl := some.inj hs
      exact .drained last (left + 1) hpc (.inr hring)
    next m ring hring =>
      obtain rfl := some.inj hs
      exact .drains last left m ring hpc hring
  next hpc =>
    obtain rfl := some.inj hs
    exact .clears hpc
  next hpc =>
    obtain rfl := some.inj hs
    exact .answers hpc
  next hpc =>
    split at hs
    next =>
      obtain rfl := some.inj hs
      exact .misses hpc
    next m ring hring =>
      obtain rfl := some.inj hs
      exact .pops m ring hpc hring
  next k m i hpc =>
    split at hs
    next c hc =>
      obtain rfl := some.inj hs
      exact .calls k m i c hpc hc
    next =>
      obtain rfl := some.inj hs
      exact .sent k m i hpc
  next => cases hs

theorem outputStep_same (hs : outputStep s = some s') :
    s'.ctl = s.ctl ∧ s'.kernel = s.kernel ∧ s'.arrived = s.arrived ∧ s'.born = s.born := by
  cases outputStep_moves hs
  all_goals exact ⟨rfl, rfl, rfl, rfl⟩

theorem handOver_handing {rest : List (CaptureEvent CaptureTask)} (hs : s.handOver e rest = some s')
    : s'.handing = rest := by
  unfold State.handOver at hs
  split_ifs at hs <;> cases hs <;> rfl

theorem outputStep_handing (hs : outputStep s = some s') : s'.handing = s.handing := by
  cases outputStep_moves hs
  all_goals rfl

theorem mem_pollEvents {t : CaptureTask} {packets : List Arrival} {heartbeat : Option ℤ}
    (he : e ∈ pollEvents t packets heartbeat) : e.user = t := by
  rcases List.mem_append.mp he with he | he
  · obtain ⟨a, -, rfl⟩ := List.mem_map.mp he
    rfl
  · obtain ⟨now, -, rfl⟩ := List.mem_map.mp he
    rfl

/-- **The protocol inside the worker.** Every step is a step of the protocol or leaves it alone. -/
theorem step_ctl (s : State) (a : Act) (s' : State) (hs : step s a = some s') :
    s'.ctl = s.ctl ∨ ∃ b, Reload.step s.ctl b = some s'.ctl := by
  cases a with
  | main c =>
    rcases mainStep_cases hs with ⟨e, rest, -, hover⟩ | ⟨-, ctl, hctl, hcase⟩
    · exact Or.inl (handOver_same hover).1
    · refine Or.inr ⟨.main ⟨s.found c, c.cycle, s.out.isExited⟩, ?_⟩
      rw [Reload.step, hctl]
      rcases hcase with ⟨t, rest, -, rfl⟩ | ⟨-, rfl⟩ | ⟨-, -, rfl⟩
      all_goals rfl
  | reload c =>
    obtain ⟨ctl, hctl, hcase⟩ := reloadStep_cases hs
    refine Or.inr ⟨.reload { c with response := s.response }, ?_⟩
    rw [Reload.step, hctl]
    rcases hcase with ⟨-, rfl⟩ | ⟨-, rfl⟩ | ⟨-, -, rfl⟩
    all_goals rfl
  | output => exact Or.inl (outputStep_same hs).1
  | signal =>
    cases hs
    exact Or.inr ⟨.signal, rfl⟩
  | quit =>
    cases hs
    exact Or.inr ⟨.quit, rfl⟩
  | arrive p reaches =>
    cases hs
    exact Or.inl rfl

theorem step_ordered {a : Act} (hord : Reload.Ordered s.ctl) (hs : step s a = some s') :
    Reload.Ordered s'.ctl := by
  rcases step_ctl s a s' hs with heq | ⟨b, hb⟩
  · rw [heq]
    exact hord
  · exact Reload.ordered_step s.ctl b s'.ctl hord hb

theorem exec_ctl {config : Config} {create : ℕ → Except String Unit} {acts : List Act}
    (h : exec step (initial config create) acts = some s) :
    ∃ bs, exec Reload.step (Reload.initial config create) bs = some s.ctl :=
  exec_project step_ctl h

end Threads

end CloudProbe.Worker
