import CloudProbe.Lib.CircularQueue
import CloudProbe.Lib.Runs

/-!
# The daemon's log buffer

`SyncLogBuffer` keeps the log entries that the next sync request sends: `Write` stores an entry in a
circular array and gives up the oldest one when the array is full, `Clear` takes everything out.
Both hold the mutex for their whole body, so a history is a list of calls. The buffer is the
overwriting queue of `Lib.CircularQueue`. An index outside the array is a panic, `none` here.

Source: `cpdaemon/pkg/cpm/synclog.go`.
-/

namespace CloudProbe.Daemon

open CloudProbe.Lib

/-- A point in time, as far as `Write` reads it: seconds since the epoch and nanoseconds within the
second. -/
structure Time where
  sec : ℤ
  nsec : ℕ

def Time.unix (ts : Time) : ℤ := ts.sec

def Time.unixMicro (ts : Time) : ℤ := ts.sec * 1000000 + ts.nsec / 1000

/-- `LogEntry`.
Source: `SyncLogBuffer.Write`. -/
structure LogEntry where
  timestamp : ℤ
  microTimestamp : ℤ
  level : String
  details : String
deriving DecidableEq, Repr

/-- The zero value, which `clear` writes to every slot. -/
def LogEntry.zero : LogEntry := ⟨0, 0, "", ""⟩

def syncLogBufSize : ℕ := 200

/-- `SyncLogBuffer` without its mutex. -/
structure SyncLogBuffer where
  entries : Vector LogEntry syncLogBufSize
  start : ℕ
  endIdx : ℕ

namespace SyncLogBuffer

def zero : SyncLogBuffer := ⟨Vector.replicate syncLogBufSize LogEntry.zero, 0, 0⟩

/-- The entry that `Write` builds; `levelString` is `Level.String`. -/
def newEntry (levelString : ℤ → String) (ts : Time) (level : ℤ) (content : String) : LogEntry where
  timestamp := ts.unix
  microTimestamp := ts.unixMicro.tmod 1000000
  level := levelString level
  details := content

/-- `Write`, behind the construction of the entry.
Source: `SyncLogBuffer.Write`. -/
def write (b : SyncLogBuffer) (entry : LogEntry) : Option SyncLogBuffer :=
  if h : b.endIdx < syncLogBufSize then
    let b := { b with entries := b.entries.set b.endIdx entry h }
    let b := { b with endIdx := (b.endIdx + 1) % syncLogBufSize }
    if b.endIdx = b.start then
      some { b with start := (b.start + 1) % syncLogBufSize }
    else
      some b
  else
    none

/-- The loop of `Clear`: the entries from index `start` up to `end`. The loop has no bound of its
own; `none` also stands for a loop that takes more than `fuel` rounds. -/
def collect (b : SyncLogBuffer) : ℕ → ℕ → Option (List LogEntry)
  | 0, start => if start = b.endIdx then some [] else none
  | fuel + 1, start =>
    if start = b.endIdx then some []
    else
      (b.entries[start]?).bind fun e =>
        (collect b fuel ((start + 1) % syncLogBufSize)).map (e :: ·)

/-- The capacity that `Clear` gives its result. -/
def pending (b : SyncLogBuffer) : ℤ :=
  ((b.endIdx : ℤ) - b.start + syncLogBufSize).tmod syncLogBufSize

/-- `Clear`. A negative capacity would make `make` panic.
Source: `SyncLogBuffer.Clear`. -/
def clear (b : SyncLogBuffer) : Option (List LogEntry × SyncLogBuffer) :=
  if b.pending < 0 then none
  else
    (b.collect syncLogBufSize b.start).map fun result =>
      (result,
        { entries := Vector.replicate syncLogBufSize LogEntry.zero, start := 0, endIdx := 0 })

/-! ## Refinement -/

/-- The buffer as a queue: `Write` stores at `end`, `Clear` reads from `start` on. -/
def queue (b : SyncLogBuffer) : Queue LogEntry where
  size := syncLogBufSize
  buf := fun i => b.entries[i]?
  head := b.endIdx
  tail := b.start
  size_pos := by decide

variable {b : SyncLogBuffer}

/-- A write is a `put` of the queue. -/
theorem write_queue (hend : b.endIdx < syncLogBufSize) (e : LogEntry) :
    ∃ b', b.write e = some b' ∧ b'.queue = b.queue.put e := by
  have hset : ∀ i, (b.entries.set b.endIdx e hend)[i]? =
      if i = b.endIdx then some e else b.entries[i]? := by
    intro i
    rw [Vector.getElem?_set]
    simp only [eq_comm]
  rw [write, dif_pos hend]
  by_cases hround : (b.endIdx + 1) % syncLogBufSize = b.start
  · have hput : b.queue.put e = _ := if_pos hround
    refine ⟨_, if_pos hround, ?_⟩
    rw [hput]
    simp only [queue, Queue.write, Queue.setHead, Queue.setTail, Queue.next, hset]
    rfl
  · have hput : b.queue.put e = _ := if_neg hround
    refine ⟨_, if_neg hround, ?_⟩
    rw [hput]
    simp only [queue, Queue.write, Queue.setHead, Queue.next, hset]
    rfl

theorem collect_eq_walk (b : SyncLogBuffer) (fuel start : ℕ) :
    b.collect fuel start = b.queue.walk fuel start := by
  induction fuel generalizing start with
  | zero => rfl
  | succ fuel ih =>
    rw [collect, Queue.walk, ih]
    rfl

theorem pending_eq {q : List LogEntry} (h : Queue.Holds b.queue q) :
    b.pending = q.length := by
  have hdist := h.distance (le_refl q.length) b.endIdx h.head_eq
  have hlen : q.length < syncLogBufSize := h.length_lt
  have htail : b.start < syncLogBufSize := h.tail_lt
  have hnonneg : (0 : ℤ) ≤ b.endIdx - b.start + syncLogBufSize := by omega
  rw [pending, Int.tmod_eq_emod_of_nonneg hnonneg]
  change (if b.start ≤ b.endIdx then b.endIdx - b.start
      else syncLogBufSize - b.start + b.endIdx) = q.length at hdist
  rw [syncLogBufSize] at *
  split at hdist <;> omega

theorem clear_of_holds {q : List LogEntry} (h : Queue.Holds b.queue q) :
    b.clear = some (q, zero) := by
  have hpending : ¬ b.pending < 0 := by
    rw [pending_eq h]
    omega
  have hlen : q.length < syncLogBufSize := h.length_lt
  have hwalk : b.queue.walk syncLogBufSize b.start = some q := h.walk hlen.le
  rw [clear, if_neg hpending, collect_eq_walk, hwalk]
  rfl

/-! ## Histories -/

inductive Call
  | write (ts : Time) (level : ℤ) (content : String)
  | clear

variable (levelString : ℤ → String)

def step (b : SyncLogBuffer) : Call → Option SyncLogBuffer
  | .write ts level content => b.write (newEntry levelString ts level content)
  | .clear => b.clear.map Prod.snd

/-- The entries written since the last `Clear`, in the order of the calls; `past` are those written
before the calls. -/
def writtenAfter (past : List LogEntry) : List Call → List LogEntry
  | [] => past
  | .write ts level content :: calls =>
    writtenAfter (past ++ [newEntry levelString ts level content]) calls
  | .clear :: calls => writtenAfter [] calls

def written (calls : List Call) : List LogEntry := writtenAfter levelString [] calls

theorem zero_holds_newest :
    Queue.Holds zero.queue (([] : List LogEntry).rtake (syncLogBufSize - 1)) := by
  rw [List.rtake_nil]
  exact Queue.holds_nil rfl rfl

/-- **The run lemma**: the ring holds the newest entries. -/
theorem exec_holds {past : List LogEntry} (calls : List Call)
    (h : Queue.Holds b.queue (past.rtake (syncLogBufSize - 1))) :
    ∃ b', exec (step levelString) b calls = some b' ∧
      Queue.Holds b'.queue
        ((writtenAfter levelString past calls).rtake (syncLogBufSize - 1)) := by
  induction calls generalizing b past with
  | nil => exact ⟨b, rfl, h⟩
  | cons call calls ih =>
    cases call with
    | write ts level content =>
      have hend : b.endIdx < syncLogBufSize := by
        have hhead : b.endIdx = (b.start + _) % syncLogBufSize := h.head_eq
        rw [hhead]
        exact Nat.mod_lt _ (by decide)
      obtain ⟨b₁, hwrite, hqueue⟩ := write_queue hend (newEntry levelString ts level content)
      have hput : Queue.Holds b₁.queue
          ((past ++ [newEntry levelString ts level content]).rtake (syncLogBufSize - 1)) := by
        rw [hqueue, ← Queue.rtake_rtake_concat]
        exact h.put (by decide : 2 ≤ syncLogBufSize) _
      obtain ⟨b', hrun, hholds⟩ := ih hput
      exact ⟨b', (exec_cons_eq_some _).mpr ⟨b₁, hwrite, hrun⟩, hholds⟩
    | clear =>
      have hclear : step levelString b .clear = some zero := by
        rw [step, clear_of_holds h, Option.map_some]
      obtain ⟨b', hrun, hholds⟩ := ih zero_holds_newest
      exact ⟨b', (exec_cons_eq_some _).mpr ⟨zero, hclear, hrun⟩, hholds⟩

/-- **The buffer keeps the newest entries.** A `Clear` returns, in order, the newest of the entries
written since the last one, all of them up to 199. Source: `SyncLogBuffer.Write`,
`SyncLogBuffer.Clear` -/
theorem clear_returns_newest (calls : List Call) :
    ∃ b, exec (step levelString) zero calls = some b ∧
      b.start < 200 ∧ b.endIdx < 200 ∧
      b.clear = some ((written levelString calls).rtake
        (min (written levelString calls).length 199), zero) := by
  obtain ⟨b, hrun, hholds⟩ := exec_holds levelString calls zero_holds_newest
  have hend : b.endIdx = (b.start + _) % syncLogBufSize := hholds.head_eq
  have hnewest : (written levelString calls).rtake (min (written levelString calls).length 199) =
      (written levelString calls).rtake (syncLogBufSize - 1) := by
    have hcount : ∀ n : ℕ, n - min n 199 = n - (syncLogBufSize - 1) := by
      intro n
      rw [syncLogBufSize]
      omega
    rw [List.rtake, List.rtake, hcount]
  refine ⟨b, hrun, hholds.tail_lt, ?_, ?_⟩
  · rw [hend]
    exact Nat.mod_lt _ (by decide)
  · rw [hnewest]
    exact clear_of_holds hholds

end SyncLogBuffer

end CloudProbe.Daemon
