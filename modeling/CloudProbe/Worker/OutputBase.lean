import CloudProbe.Worker.RateLimit

/-!
# What the outputs have in common

`Env` has the results of the system calls an output makes. They are arbitrary; each is numbered by
the calls of its kind made before it, so a run is determined by the environment and the calls.
-/

namespace CloudProbe.Worker

/-- What `sendto` returned: the number of bytes it sent, or -1 with `ENOBUFS`, or -1 with another
error. -/
inductive SendtoResult where
  | sent (n : ℕ)
  | nobufs
  | error
deriving DecidableEq, Repr

/-- The results of the system calls of an output, each by the number of earlier calls of its
kind. -/
structure Env where
  /-- whether `zmq_send` returned something else than -1 -/
  zmqSend : ℕ → Bool
  gettimeofday : ℕ → Timeval
  sendto : ℕ → SendtoResult
  /-- `time(NULL)` -/
  time : ℕ → ℤ
  /-- whether `create_dumper` could make the directory and open the file -/
  createDumper : ℕ → Bool
  /-- whether the program was built with `__SSE2__` -/
  sse2 : Bool

structure Handed where
  packet : Packet
  direct : PktDir
deriving DecidableEq

/-- A call of an output before it is destroyed.
Source: `output.h` `output_send_packet`, `output_heartbeat` -/
inductive Call where
  | sendPacket (h : Handed)
  | heartbeat (now : ℤ)
deriving DecidableEq

def handed (calls : List Call) : List Handed :=
  calls.filterMap fun
    | .sendPacket h => some h
    | .heartbeat _ => none

end CloudProbe.Worker
