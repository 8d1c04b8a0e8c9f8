import CloudProbe.Lib.CircularQueue
import CloudProbe.Lib.Runs
import CloudProbe.Worker.Packet

/-!
# The two execution models: run to completion and pipeline

* **Run to completion** (`rtcCalls`): the callbacks call every output of the task directly.
* **Pipeline** (`Pipeline.step`): the capture thread copies each packet or heartbeat into a message
  and pushes it to a single-producer single-consumer ring; the output thread pops, calls the outputs
  of the message's task, and frees. Every atomic load and store is a step of its own.

What the threads do not control is in the actions: whether a weak compare-and-swap fails spuriously,
whether `malloc` succeeds, whether a drain is requested, and the schedule.

Sources without a file are in `task.c`.
-/

namespace CloudProbe.Worker

open CloudProbe.Lib

/-- What a capturer hands to the callbacks of a task.
Source: `capturer.h` `capture_packet_handler`, `capture_heartbeat_handler` -/
inductive Captured where
  | packet (p : Packet) (direct : PktDir)
  | heartbeat (now : ℤ)
deriving DecidableEq

/-- A callback invocation: `user` is the capture task. -/
structure CaptureEvent (τ : Type*) where
  user : τ
  captured : Captured

/-- A call to an output.
Source: `output.h` `output_send_packet`, `output_heartbeat` -/
inductive OutputCall where
  | sendPacket (hdr : PcapPkthdr) (data : List UInt8) (direct : PktDir)
  | heartbeat (now : ℤ)
deriving DecidableEq

/-- A call together with the output that gets it: position `output` in `user->outputs`. -/
structure Sent (τ : Type*) where
  user : τ
  output : ℕ
  call : OutputCall

variable {τ : Type*}

/-- One call to each of the `n` outputs of a task, in order. -/
def callOutputs (user : τ) (n : ℕ) (call : OutputCall) : List (Sent τ) :=
  (List.range n).map fun i => ⟨user, i, call⟩

/-- The callback on a packet, run to completion.
Source: `rtc_capture_task_packet_cb` -/
def rtcCaptureTaskPacketCb (numOutputs : τ → ℕ) (user : τ) (p : Packet) (direct : PktDir) :
    List (Sent τ) :=
  if p.hdr.caplen.toNat < etherHeaderLen then []
  else callOutputs user (numOutputs user) (.sendPacket p.hdr p.data direct)

/-- The callback on a heartbeat, run to completion; `now` is the time it reads.
Source: `rtc_capture_task_heartbeat_cb` -/
def rtcCaptureTaskHeartbeatCb (numOutputs : τ → ℕ) (user : τ) (now : ℤ) : List (Sent τ) :=
  callOutputs user (numOutputs user) (.heartbeat now)

def rtcEvent (numOutputs : τ → ℕ) (e : CaptureEvent τ) : List (Sent τ) :=
  match e.captured with
  | .packet p direct => rtcCaptureTaskPacketCb numOutputs e.user p direct
  | .heartbeat now => rtcCaptureTaskHeartbeatCb numOutputs e.user now

def rtcCalls (numOutputs : τ → ℕ) (es : List (CaptureEvent τ)) : List (Sent τ) :=
  es.flatMap (rtcEvent numOutputs)

/-! ### Messages -/

/-- `ring_msg_t`, with the fields both callbacks set before they push it.
Source: `ring_buffer.h` `ring_msg_t` -/
inductive RingMsg (τ : Type*) where
  | packet (user : τ) (direction : PktDir) (hdr : PcapPkthdr) (data : List UInt8)
  | heartbeat (user : τ) (ts : ℤ)

/-- `sizeof(ring_msg_t)` on a 64-bit target. -/
def ringMsgSize : ℕ := 48

/-- The bytes `simple_msg_free` gives back.
Source: `ring_buffer.c` `simple_msg_free` -/
def RingMsg.size : RingMsg τ → ℕ
  | .packet _ _ hdr _ => ringMsgSize + hdr.caplen.toNat
  | .heartbeat _ _ => ringMsgSize

/-- The bytes an allocation for an event reserves.
Source: `ring_buffer.c` `simple_alloc_packet`, `simple_alloc_heartbeat` -/
def CaptureEvent.allocSize (e : CaptureEvent τ) : ℕ :=
  match e.captured with
  | .packet p _ => ringMsgSize + p.hdr.caplen.toNat
  | .heartbeat _ => ringMsgSize

/-- The message for an event, with the header and `caplen` bytes of the data copied, and the
callback's `user` and `direction`. Source: `simple_alloc_packet`, `simple_alloc_heartbeat`;
`pipeline_capture_task_packet_cb`, `pipeline_capture_task_heartbeat_cb` -/
def CaptureEvent.toMsg (e : CaptureEvent τ) : RingMsg τ :=
  match e.captured with
  | .packet p direct => .packet e.user direct p.hdr (p.data.take p.hdr.caplen.toNat)
  | .heartbeat now => .heartbeat e.user now

/-- The callback returns before it allocates: the Ethernet header is not fully captured.
Source: `pipeline_capture_task_packet_cb` -/
def CaptureEvent.tooShort (e : CaptureEvent τ) : Bool :=
  match e.captured with
  | .packet p _ => p.hdr.caplen.toNat < etherHeaderLen
  | .heartbeat _ => false

/-- The calls the output thread makes for a message.
Source: `output_send_pkt_msg` -/
def outputSendPktMsg (numOutputs : τ → ℕ) : RingMsg τ → List (Sent τ)
  | .packet user direction hdr data =>
    callOutputs user (numOutputs user) (.sendPacket hdr data direction)
  | .heartbeat user ts => callOutputs user (numOutputs user) (.heartbeat ts)

/-! ### The two threads -/

namespace Pipeline

/-- The slots of the worker's ring.
Source: `task_manager_new` -/
def ringSlots : ℕ := 1024 * 1024

/-- Program points of the capture thread inside a pipeline callback.
Source: `pipeline_capture_task_packet_cb`, `ring_buffer.c` `simple_alloc_packet`,
`spsc_ring_push` -/
inductive CapPc (τ : Type*) where
  /-- between two callback invocations -/
  | idle
  /-- `cap = load(capacity)` -/
  | loadCapacity (e : CaptureEvent τ)
  /-- `old = load(used)` -/
  | loadUsed (e : CaptureEvent τ) (cap : ℕ)
  /-- the size test and the compare-and-swap on `used` -/
  | reserve (e : CaptureEvent τ) (cap old : ℕ)
  /-- `malloc(total)` -/
  | malloc (e : CaptureEvent τ)
  /-- `fetch_sub(used, total)` after a failed `malloc` -/
  | unreserve (e : CaptureEvent τ)
  /-- `head = load(r->head)` in `spsc_ring_push` -/
  | loadHead (m : RingMsg τ)
  /-- `tail = load(r->tail)` and the test for a full ring -/
  | loadTail (m : RingMsg τ) (head : ℕ)
  /-- `r->buf[head] = msg` -/
  | writeSlot (m : RingMsg τ) (head : ℕ)
  /-- `store(r->head, next)` -/
  | storeHead (m : RingMsg τ) (head : ℕ)

/-- Which loop of the output thread a pop belongs to: the main loop, or a drain with `left` rounds
to go, the `last` one after the main loop. Source: `task_manager_output_loop`,
`task_manager_output_drain_ring` -/
inductive PopFor where
  | mainLoop
  | drain (last : Bool) (left : ℕ)

/-- Program points of the output thread.
Source: `task_manager_output_loop`, `task_manager_output_drain_ring`; `ring_buffer.c`
`spsc_ring_used`, `spsc_ring_pop`, `simple_msg_free` -/
inductive OutPc (τ : Type*) where
  /-- `while (load(output_thread_running))` -/
  | loop
  /-- `if (load(output_drain_ring_request))` -/
  | request
  /-- `head = load(r->head)` in `spsc_ring_used` -/
  | usedHead (last : Bool)
  /-- `tail = load(r->tail)` in `spsc_ring_used` -/
  | usedTail (last : Bool) (head : ℕ)
  /-- `for (i = 0; i < used; ++i)` with `left` rounds to go -/
  | drainLoop (last : Bool) (left : ℕ)
  /-- `head = load(r->head)` in `spsc_ring_pop` -/
  | popHead (k : PopFor)
  /-- `tail = load(r->tail)` and the test for an empty ring -/
  | popTail (k : PopFor) (head : ℕ)
  /-- `*out = r->buf[tail]` -/
  | popRead (k : PopFor) (tail : ℕ)
  /-- `store(r->tail, (tail + 1) % size)` -/
  | popStore (k : PopFor) (tail : ℕ) (m : RingMsg τ)
  /-- the loop over the outputs of the message's task, at output `i` -/
  | send (k : PopFor) (m : RingMsg τ) (i : ℕ)
  /-- `curr_used = load(used)` in `simple_msg_free` -/
  | freeLoad (k : PopFor) (m : RingMsg τ)
  /-- `fetch_sub(used, len)` -/
  | freeSub (k : PopFor) (len : ℕ)
  /-- the thread function returned -/
  | exited
  /-- a slot was read that no push had written -/
  | fault

structure State (τ : Type*) where
  /-- callback invocations still to come -/
  inputs : List (CaptureEvent τ)
  cap : CapPc τ
  ring : Queue (RingMsg τ)
  /-- `alloc->capacity` -/
  capacity : ℕ
  /-- `alloc->used` -/
  used : ℕ
  /-- `output_thread_running` -/
  running : Bool
  out : OutPc τ
  /-- calls made to outputs, oldest first -/
  sent : List (Sent τ)
  /-- history: the messages pushed so far, oldest first -/
  pushed : List (RingMsg τ)
  /-- history: the messages popped so far, oldest first -/
  popped : List (RingMsg τ)

inductive Act where
  /-- the capture thread; a compare-and-swap may fail spuriously, `malloc` may fail -/
  | capture (spurious mallocOk : Bool)
  /-- the capture thread resizes the allocator between two callbacks -/
  | resize (newCapacity : ℕ)
  /-- after its last callback the capture thread clears `output_thread_running` -/
  | stop
  /-- the output thread; `request` is the value of `output_drain_ring_request` if it loads it -/
  | output (request : Bool)

/-- Source: `pipeline_capture_task_packet_cb`, `pipeline_capture_task_heartbeat_cb`;
`ring_buffer.c` `simple_alloc_packet`, `simple_alloc_heartbeat`, `spsc_ring_push` -/
def captureStep (s : State τ) (spurious mallocOk : Bool) : Option (State τ) :=
  match s.cap with
  | .idle =>
    match s.inputs with
    | [] => none
    | e :: es =>
      if e.tooShort then some { s with inputs := es }
      else some { s with inputs := es, cap := .loadCapacity e }
  | .loadCapacity e => some { s with cap := .loadUsed e s.capacity }
  | .loadUsed e cap => some { s with cap := .reserve e cap s.used }
  | .reserve e cap old =>
    -- a failed test returns NULL and the callback retries; a failed swap reloads `old`
    if (old + e.allocSize) % 2 ^ 64 > cap then some { s with cap := .loadCapacity e }
    else if s.used = old ∧ spurious = false then
      some { s with used := (old + e.allocSize) % 2 ^ 64, cap := .malloc e }
    else some { s with cap := .reserve e cap s.used }
  | .malloc e =>
    if mallocOk then some { s with cap := .loadHead e.toMsg }
    else some { s with cap := .unreserve e }
  | .unreserve e =>
    some { s with
      used := (s.used + 2 ^ 64 - e.allocSize % 2 ^ 64) % 2 ^ 64, cap := .loadCapacity e }
  | .loadHead m => some { s with cap := .loadTail m s.ring.head }
  | .loadTail m head =>
    if s.ring.next head = s.ring.tail then some { s with cap := .loadHead m }
    else some { s with cap := .writeSlot m head }
  | .writeSlot m head => some { s with ring := s.ring.write head m, cap := .storeHead m head }
  | .storeHead m head =>
    some { s with
      ring := s.ring.setHead (s.ring.next head), cap := .idle, pushed := s.pushed ++ [m] }

def PopFor.continue : PopFor → OutPc τ
  | .mainLoop => .loop
  | .drain last left => .drainLoop last left

def afterDrain (last : Bool) : OutPc τ := if last then .exited else .popHead .mainLoop

/-- Where the output thread goes on when a pop finds the ring empty: the main loop sleeps and starts
over, a drain breaks. -/
def PopFor.onEmpty : PopFor → OutPc τ
  | .mainLoop => .loop
  | .drain last _ => afterDrain last

/-- Source: `task_manager_output_loop`, `task_manager_output_drain_ring`,
`output_send_pkt_msg`; `ring_buffer.c` `spsc_ring_used`, `spsc_ring_pop`, `simple_msg_free` -/
def outputStep (numOutputs : τ → ℕ) (s : State τ) (request : Bool) : Option (State τ) :=
  match s.out with
  | .loop => some { s with out := if s.running then .request else .usedHead true }
  | .request => some { s with out := if request then .usedHead false else .popHead .mainLoop }
  | .usedHead last => some { s with out := .usedTail last s.ring.head }
  | .usedTail last head =>
    let tail := s.ring.tail
    let used := if tail ≤ head then head - tail else s.ring.size - tail + head
    some { s with out := .drainLoop last used }
  | .drainLoop last 0 => some { s with out := afterDrain last }
  | .drainLoop last (left + 1) => some { s with out := .popHead (.drain last left) }
  | .popHead k => some { s with out := .popTail k s.ring.head }
  | .popTail k head =>
    if s.ring.tail = head then some { s with out := k.onEmpty }
    else some { s with out := .popRead k s.ring.tail }
  | .popRead k tail =>
    match s.ring.buf tail with
    | some m => some { s with out := .popStore k tail m }
    | none => some { s with out := .fault }
  | .popStore k tail m =>
    some { s with
      ring := s.ring.setTail (s.ring.next tail), out := .send k m 0, popped := s.popped ++ [m] }
  | .send k m i =>
    match (outputSendPktMsg numOutputs m)[i]? with
    | some c => some { s with sent := s.sent ++ [c], out := .send k m (i + 1) }
    | none => some { s with out := .freeLoad k m }
  | .freeLoad k m => some { s with out := .freeSub k (min m.size s.used) }
  | .freeSub k len =>
    some { s with used := (s.used + 2 ^ 64 - len % 2 ^ 64) % 2 ^ 64, out := k.continue }
  | .exited => none
  | .fault => none

def step (numOutputs : τ → ℕ) (s : State τ) : Act → Option (State τ)
  | .capture spurious mallocOk => captureStep s spurious mallocOk
  | .resize newCapacity =>
    match s.cap with
    | .idle => some { s with capacity := newCapacity }
    | _ => none
  | .stop =>
    match s.cap, s.inputs with
    | .idle, [] => some { s with running := false }
    | _, _ => none
  | .output request => outputStep numOutputs s request

/-- The state in which the output thread starts: an empty ring with `size` slots, `1024 * 1024` in
the worker, and nothing reserved. Source: `task_manager_new`, `task_manager_start_output_thread`;
`ring_buffer.c` `spsc_ring_create`, `simple_allocator_create` -/
def initial (size : ℕ) (size_pos : 0 < size) (capacity : ℕ) (es : List (CaptureEvent τ)) :
    State τ where
  inputs := es
  cap := .idle
  ring := { size := size, buf := fun _ => none, head := 0, tail := 0, size_pos := size_pos }
  capacity := capacity
  used := 0
  running := true
  out := .loop
  sent := []
  pushed := []
  popped := []

end Pipeline

end CloudProbe.Worker
