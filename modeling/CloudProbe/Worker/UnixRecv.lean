import CloudProbe.Golib.UnixClient
import CloudProbe.Lib.Bytes
import CloudProbe.Lib.CString
import CloudProbe.Lib.Runs

/-!
# How a request comes in on the command socket

`unix_client_recv` collects a request in a buffer until a read ends with a newline, and has it
executed. It is a machine whose steps are the answers of `recv` and `select`. A position outside the
buffer is the state `fault`.

* **The command** (`unixCommandExecute`): JSON, the registered commands and the reply's way out are
  parameters.
* **Invariant** (`step_inv`): the buffer is never overrun, and there is room before every read.
* **Chunks** (`Chunk`, `Timely`): the program waits for all but the first one. The counter of waits
  is shared: when three are used up, one wait is left for every further chunk.

A request text is any bytes without a newline. The command sees it up to its first NUL.

Source: `cpworker/src/unix-manager.c`.
-/

namespace CloudProbe.Worker

open Golib CloudProbe.Lib Option

/-! ## The command -/

/-- A registered command: the value its function returns for a request, and what it makes of the
reply.
Source: `command_t` -/
structure Command (J R : Type) where
  name : List UInt8
  func : J → R → ℤ × R

/-- What a command depends on besides its text: `J` are parsed requests, `R` replies. -/
structure ExecEnv (J R : Type) where
  createObject : Option R
  parse : List UInt8 → Option J
  commandName : J → Option (List UInt8)
  commands : List (Command J R)
  addString : R → String → String → Option R
  send : R → ℤ

/-- What `unix_command_execute` returns, the command it called, the reply it gave to
`unix_client_send`, and whether it deleted the client. -/
structure ExecResult (R : Type) where
  rc : ℤ
  called : Option (List UInt8)
  reply : Option R
  deleted : Bool

section Command

variable {J R : Type}

/-- The end of `unix_command_execute`: the reply is sent.
Source: `unix_command_execute` -/
def sendReply (env : ExecEnv J R) (called : Option (List UInt8)) (serverMsg : R) : ExecResult R :=
  if env.send serverMsg ≠ 0 then ⟨-1, called, some serverMsg, true⟩
  else ⟨0, called, some serverMsg, false⟩

def unixCommandExecute (env : ExecEnv J R) (command : CString) : ExecResult R :=
  match env.createObject with
  | none => ⟨-1, none, none, false⟩
  | some serverMsg =>
    match (env.parse command.bytes).bind fun cmdMsg =>
      (env.commandName cmdMsg).map fun cmdName => (cmdMsg, cmdName) with
    -- not JSON, or no string `command` in it
    | none => ⟨-1, none, none, true⟩
    | some (cmdMsg, cmdName) =>
      match env.commands.find? (·.name = cmdName) with
      | none =>
        match (env.addString serverMsg "message" "unknown command").bind
          (env.addString · "status" "ERROR") with
        | none => ⟨-1, none, none, true⟩
        | some serverMsg => sendReply env none serverMsg
      | some cmd =>
        let (fret, serverMsg) := cmd.func cmdMsg serverMsg
        match env.addString serverMsg "status" (if fret ≠ 0 then "ERROR" else "OK") with
        | none => ⟨-1, some cmd.name, none, true⟩
        | some serverMsg => sendReply env (some cmd.name) serverMsg

end Command

/-! ## The machine -/

/-- `sizeof(buffer)`. -/
def recvBufferSize : ℕ := 4096

/-- What `recv` finds: bytes, of which it takes as many as it was asked for (none at the end of the
stream), or an error. -/
inductive RecvResult where
  | data (available : List UInt8)
  | error

/-- What `select` returns for the client's socket. -/
inductive SelectResult where
  | ready
  | timeout
  | eintr
  | error

inductive Gone where
  | lostConnection
  | recvError
  | tooLong
  | selectError
  | incomplete
deriving DecidableEq

/-- Where the program is: in front of a call, or at an end. -/
inductive RecvPc (R : Type) where
  | recv
  | select
  | execute
  | deleted (why : Gone)
  | returned (result : ExecResult R)
  | fault

/-- The variables of `unix_client_recv`; `executed` are the commands it had executed. -/
structure RecvState (R : Type) where
  buffer : List UInt8
  tries : ℕ
  offset : ℕ
  pc : RecvPc R
  executed : List CString

/-- An answer of the system to the call the program is at; for `execute` it is left to the
command. -/
inductive SysAnswer where
  | recv (r : RecvResult)
  | select (r : SelectResult)
  | execute

/-- `sizeof(buffer) - offset - 1`, a `size_t`.
Source: `unix_client_recv` -/
def recvSize (offset : ℕ) : ℕ := (recvBufferSize + 2 ^ 64 - offset - 1) % 2 ^ 64

variable {J R : Type}

/-- Behind `recv`.
Source: `unix_client_recv` -/
def afterRecv (s : RecvState R) : RecvResult → RecvState R
  | .error => { s with pc := .deleted .recvError }
  | .data available =>
    let got := available.take (recvSize s.offset)
    if got = [] then { s with pc := .deleted .lostConnection }
    else if s.buffer.length < s.offset + got.length then { s with pc := .fault }
    else
      let buffer := patch s.buffer s.offset got
      let offset := s.offset + got.length
      if offset ≥ recvBufferSize - 1 then
        { s with buffer := buffer, offset := offset, pc := .deleted .tooLong }
      else if buffer[offset - 1]? = some newline then
        { s with buffer := patch buffer (offset - 1) [0], offset := offset, pc := .execute }
      else { s with buffer := buffer, offset := offset, pc := .select }

/-- Behind `select`, with the condition of the inner loop.
Source: `unix_client_recv` -/
def afterSelect (s : RecvState R) : SelectResult → RecvState R
  | .ready => { s with tries := s.tries + 1, pc := .recv }
  | .timeout | .eintr =>
    if s.tries + 1 < 3 then { s with tries := s.tries + 1 }
    else { s with tries := s.tries + 1, pc := .deleted .incomplete }
  | .error => { s with tries := s.tries + 1, pc := .deleted .selectError }

/-- A step: the answer has to be one to the call the program is at.
Source: `unix_client_recv` -/
def recvStep (env : ExecEnv J R) (s : RecvState R) (a : SysAnswer) : Option (RecvState R) :=
  match s.pc, a with
  | .recv, .recv r => some (afterRecv s r)
  | .select, .select r => some (afterSelect s r)
  | .execute, .execute =>
    let command := CString.ofBuffer s.buffer
    some { s with
      pc := .returned (unixCommandExecute env command)
      executed := s.executed ++ [command] }
  | _, _ => none

/-- At the first `recv`; the buffer is not initialised.
Source: `unix_client_recv` -/
def RecvState.start (buffer : Vector UInt8 recvBufferSize) : RecvState R :=
  ⟨buffer.toList, 0, 0, .recv, []⟩

/-! ## Chunks -/

/-- An answer of `select` after which the program waits again. -/
inductive Miss where
  | timeout
  | eintr

def Miss.result : Miss → SelectResult
  | .timeout => .timeout
  | .eintr => .eintr

/-- A chunk that the program waits for: the answers of `select` before it is readable, and its
bytes. -/
structure Chunk where
  misses : List Miss
  bytes : List UInt8

def Chunk.answers (c : Chunk) : List SysAnswer :=
  c.misses.map (fun m => .select m.result) ++ [.select .ready, .recv (.data c.bytes)]

/-- Every chunk is non-empty and readable before the wait for it runs out; `tries` waits are
used. -/
def Timely : ℕ → List Chunk → Prop
  | _, [] => True
  | tries, c :: cs =>
    c.bytes ≠ [] ∧ (c.misses = [] ∨ tries + c.misses.length < 3) ∧
      Timely (tries + c.misses.length + 1) cs

/-- The answers of the system while chunks come in. The first one is there when the program
starts. -/
def delivery (first : List UInt8) (rest : List Chunk) : List SysAnswer :=
  .recv (.data first) :: rest.flatMap Chunk.answers

def received (first : List UInt8) (rest : List Chunk) : List UInt8 :=
  first ++ rest.flatMap Chunk.bytes

/-! ## The invariant -/

def RecvPc.receiving : RecvPc R → Bool
  | .recv | .select => true
  | _ => false

/-- There is room in the buffer as long as the program can read. -/
structure RecvState.Inv (s : RecvState R) : Prop where
  length : s.buffer.length = recvBufferSize
  room : s.pc.receiving = true → s.offset < recvBufferSize - 1
  no_fault : s.pc ≠ .fault

theorem recvSize_eq {offset : ℕ} (h : offset < recvBufferSize - 1) :
    recvSize offset = recvBufferSize - 1 - offset := by
  rw [recvBufferSize] at h
  rw [recvSize, recvBufferSize]
  omega

variable {s : RecvState R} {got bytes : List UInt8} (env : ExecEnv J R)

/-- **What a read does** when there is room: the client is lost, or the bytes are behind those of
the buffer. -/
theorem afterRecv_cases (hinv : s.Inv) (hpc : s.pc = .recv) (r : RecvResult) :
    (∃ why, afterRecv s r = { s with pc := .deleted why } ∧
      ∀ available, r = .data available → available.take (recvBufferSize - 1 - s.offset) = []) ∨
    ∃ available got buffer offset, r = .data available ∧
      got = available.take (recvBufferSize - 1 - s.offset) ∧ got ≠ [] ∧
      buffer = patch s.buffer s.offset got ∧ offset = s.offset + got.length ∧
      (offset ≥ recvBufferSize - 1 ∧
          afterRecv s r = { s with buffer := buffer, offset := offset, pc := .deleted .tooLong } ∨
        offset < recvBufferSize - 1 ∧ buffer[offset - 1]? = some newline ∧
          afterRecv s r =
            { s with buffer := patch buffer (offset - 1) [0], offset := offset, pc := .execute } ∨
        offset < recvBufferSize - 1 ∧ buffer[offset - 1]? ≠ some newline ∧
          afterRecv s r = { s with buffer := buffer, offset := offset, pc := .select }) := by
  have hroom := hinv.room (by rw [hpc]; rfl)
  cases r with
  | error => exact .inl ⟨.recvError, rfl, nofun⟩
  | data available =>
    obtain ⟨got, hgot⟩ : ∃ got, got = available.take (recvBufferSize - 1 - s.offset) := ⟨_, rfl⟩
    have hfits : ¬ s.buffer.length < s.offset + got.length := by
      rw [hinv.length, hgot, List.length_take]
      omega
    generalize heq : afterRecv s (.data available) = s'
    rw [afterRecv, recvSize_eq hroom, ← hgot] at heq
    dsimp only at heq
    by_cases hnil : got = []
    · rw [if_pos hnil] at heq
      refine .inl ⟨.lostConnection, heq.symm, fun available' h => ?_⟩
      cases h
      exact hgot.symm.trans hnil
    rw [if_neg hnil, if_neg hfits] at heq
    refine .inr ⟨available, got, _, _, rfl, hgot, hnil, rfl, rfl, ?_⟩
    split_ifs at heq with hfull hline
    · exact .inl ⟨hfull, heq.symm⟩
    · exact .inr (.inl ⟨Nat.lt_of_not_ge hfull, hline, heq.symm⟩)
    · exact .inr (.inr ⟨Nat.lt_of_not_ge hfull, hline, heq.symm⟩)

/-- A read keeps the invariant. -/
theorem afterRecv_inv (hinv : s.Inv) (hpc : s.pc = .recv) (r : RecvResult) :
    (afterRecv s r).Inv := by
  have hroom := hinv.room (by rw [hpc]; rfl)
  obtain ⟨why, heq, -⟩ | ⟨available, got, buffer, offset, -, hgot, hne, hbuffer, hoffset, hcases⟩ :=
    afterRecv_cases hinv hpc r
  · rw [heq]
    exact ⟨hinv.length, nofun, nofun⟩
  have hlen : got.length ≤ recvBufferSize - 1 - s.offset := by
    rw [hgot, List.length_take]
    omega
  have hpos : 0 < got.length := List.length_pos_of_ne_nil hne
  have hlength : buffer.length = recvBufferSize := by
    rw [hbuffer, length_patch rfl (by rw [hinv.length]; omega), hinv.length]
  obtain ⟨-, heq⟩ | ⟨hlt, -, heq⟩ | ⟨hlt, -, heq⟩ := hcases
  · rw [heq]
    exact ⟨hlength, nofun, nofun⟩
  · rw [heq]
    refine ⟨?_, nofun, nofun⟩
    dsimp only
    rw [length_patch rfl (by rw [hlength, List.length_singleton]; omega), hlength]
  · rw [heq]
    exact ⟨hlength, fun _ => hlt, nofun⟩

theorem afterRecv_executed (hinv : s.Inv) (hpc : s.pc = .recv) (r : RecvResult) :
    (afterRecv s r).executed = s.executed := by
  obtain ⟨why, heq, -⟩ | ⟨available, got, buffer, offset, -, -, -, -, -, hcases⟩ :=
    afterRecv_cases hinv hpc r
  · rw [heq]
  obtain ⟨-, heq⟩ | ⟨-, -, heq⟩ | ⟨-, -, heq⟩ := hcases <;> rw [heq]

theorem afterSelect_inv (hinv : s.Inv) (hpc : s.pc = .select) (r : SelectResult) :
    (afterSelect s r).Inv := by
  have hroom := hinv.room (by rw [hpc]; rfl)
  have hmiss : ∀ s', s' = { s with tries := s.tries + 1 } ∨
      s' = { s with tries := s.tries + 1, pc := .deleted .incomplete } → s'.Inv := by
    rintro s' (rfl | rfl)
    · exact ⟨hinv.length, fun _ => hroom, hinv.no_fault⟩
    · exact ⟨hinv.length, nofun, nofun⟩
  cases r with
  | ready => exact ⟨hinv.length, fun _ => hroom, nofun⟩
  | timeout | eintr => exact hmiss _ (ite_eq_or_eq _ _ _)
  | error => exact ⟨hinv.length, nofun, nofun⟩

theorem recvStep_recv (hpc : s.pc = .recv) (r : RecvResult) :
    recvStep env s (.recv r) = some (afterRecv s r) := by
  simp only [recvStep, hpc]

theorem recvStep_select (hpc : s.pc = .select) (r : SelectResult) :
    recvStep env s (.select r) = some (afterSelect s r) := by
  simp only [recvStep, hpc]

theorem recvStep_execute (hpc : s.pc = .execute) :
    recvStep env s .execute = some { s with
      pc := .returned (unixCommandExecute env (CString.ofBuffer s.buffer))
      executed := s.executed ++ [CString.ofBuffer s.buffer] } := by
  simp only [recvStep, hpc]

/-- The steps of the program. -/
theorem recvStep_cases {env : ExecEnv J R} {s' : RecvState R} {a : SysAnswer}
    (h : recvStep env s a = some s') :
    (s.pc = .recv ∧ ∃ r, s' = afterRecv s r) ∨ (s.pc = .select ∧ ∃ r, s' = afterSelect s r) ∨
      (s.pc = .execute ∧ ∃ result, s' = { s with
        pc := .returned result, executed := s.executed ++ [CString.ofBuffer s.buffer] }) := by
  unfold recvStep at h
  cases hpc : s.pc <;> cases a <;> simp only [hpc, some.injEq, reduceCtorEq] at h <;> subst h
  · exact .inl ⟨rfl, _, rfl⟩
  · exact .inr (.inl ⟨rfl, _, rfl⟩)
  · exact .inr (.inr ⟨rfl, _, rfl⟩)

theorem recvStep_inv {env : ExecEnv J R} {s' : RecvState R} {a : SysAnswer} (hinv : s.Inv)
    (h : recvStep env s a = some s') : s'.Inv := by
  obtain ⟨hpc, r, rfl⟩ | ⟨hpc, r, rfl⟩ | ⟨-, result, rfl⟩ := recvStep_cases h
  · exact afterRecv_inv hinv hpc r
  · exact afterSelect_inv hinv hpc r
  · exact ⟨hinv.length, nofun, nofun⟩

theorem start_inv (buffer : Vector UInt8 recvBufferSize) :
    (RecvState.start buffer : RecvState R).Inv where
  length := Vector.length_toList
  room := fun _ => (by decide : 0 < recvBufferSize - 1)
  no_fault := nofun

/-! ## Framing -/

/-- The program is about to read with the bytes `got` in the buffer, the invariant included. -/
structure RecvState.Holds (s : RecvState R) (got : List UInt8) : Prop where
  inv : s.Inv
  pc : s.pc = .recv
  offset : s.offset = got.length
  take : s.buffer.take got.length = got

theorem patch_take {buffer : List UInt8} (h : buffer.take got.length = got) (bytes : List UInt8) :
    (patch buffer got.length bytes).take (got.length + bytes.length) = got ++ bytes := by
  rw [patch, h, List.append_assoc, ← List.append_assoc, ← List.length_append, List.take_left]

/-- **A chunk that leaves room** is behind the bytes that were there; a newline at its end completes
the request. -/
theorem RecvState.Holds.chunk (h : s.Holds got) (hne : bytes ≠ [])
    (hroom : (got ++ bytes).length < recvBufferSize - 1) :
    ∃ s', afterRecv s (.data bytes) = s' ∧ s'.tries = s.tries ∧ s'.executed = s.executed ∧
      (bytes.getLast? = some newline ∧ s'.pc = .execute ∧
          s'.buffer.take (got ++ bytes).length = (got ++ bytes).dropLast ++ [0] ∨
        bytes.getLast? ≠ some newline ∧ s'.pc = .select ∧
          s'.offset = (got ++ bytes).length ∧
          s'.buffer.take (got ++ bytes).length = got ++ bytes) := by
  have hlen : 0 < (got ++ bytes).length := List.length_pos_of_ne_nil (by simp [hne])
  have hall : bytes.take (recvBufferSize - 1 - s.offset) = bytes := by
    apply List.take_of_length_le
    rw [h.offset]
    rw [List.length_append] at hroom
    omega
  obtain ⟨why, -, hnone⟩ |
      ⟨available, got', buffer, offset, hr, hgot', -, hbuffer, hoffset, hcases⟩ :=
    afterRecv_cases h.inv h.pc (.data bytes)
  · exact absurd (hall.symm.trans (hnone bytes rfl)) hne
  rw [← RecvResult.data.inj hr, hall] at hgot'
  rw [hgot'] at hbuffer
  rw [hgot', h.offset, ← List.length_append] at hoffset
  have htake : buffer.take (got ++ bytes).length = got ++ bytes := by
    rw [hbuffer, h.offset, List.length_append]
    exact patch_take h.take bytes
  -- The byte that is looked at is the last one of the chunk.
  have hlast : buffer[offset - 1]? = bytes.getLast? := by
    have hget : (buffer.take (got ++ bytes).length)[(got ++ bytes).length - 1]? =
        buffer[(got ++ bytes).length - 1]? := List.getElem?_take_of_lt (by omega)
    rw [← List.getLast?_append_of_ne_nil got hne, List.getLast?_eq_getElem?, hoffset, ← hget, htake]
  have hmore : ¬ offset ≥ recvBufferSize - 1 := by omega
  obtain ⟨hfull, -⟩ | ⟨-, hline, heq⟩ | ⟨-, hline, heq⟩ := hcases
  · exact absurd hfull hmore
  · refine ⟨_, rfl, by rw [heq], by rw [heq], .inl ⟨hlast ▸ hline, by rw [heq], ?_⟩⟩
    have hdrop : buffer.take (got ++ bytes).dropLast.length = (got ++ bytes).dropLast := by
      rw [List.length_dropLast, List.dropLast_eq_take, ← htake, List.take_take,
        Nat.min_eq_left (by rw [htake]; omega), htake]
    have hzero := patch_take hdrop [0]
    rw [List.length_dropLast, List.length_singleton, Nat.sub_add_cancel hlen] at hzero
    rw [heq, hoffset]
    exact hzero
  · refine ⟨_, rfl, by rw [heq], by rw [heq], .inr ⟨hlast ▸ hline, by rw [heq], ?_, ?_⟩⟩
    · rw [heq]
      exact hoffset
    · rw [heq]
      exact htake

/-- A chunk that fills the buffer loses the client. -/
theorem RecvState.Holds.overflow (h : s.Holds got)
    (hfull : recvBufferSize - 1 ≤ (got ++ bytes).length) :
    (afterRecv s (.data bytes)).pc = .deleted .tooLong := by
  have hroom : s.offset < recvBufferSize - 1 := h.inv.room (by rw [h.pc]; rfl)
  rw [List.length_append, ← h.offset] at hfull
  have hlen : (bytes.take (recvBufferSize - 1 - s.offset)).length =
      recvBufferSize - 1 - s.offset := List.length_take_of_le (by omega)
  obtain ⟨why, -, hnone⟩ | ⟨available, got', buffer, offset, hr, hgot', -, -, hoffset, hcases⟩ :=
    afterRecv_cases h.inv h.pc (.data bytes)
  · rw [hnone bytes rfl] at hlen
    simp only [List.length_nil] at hlen
    omega
  rw [← RecvResult.data.inj hr] at hgot'
  rw [hgot', hlen] at hoffset
  obtain ⟨-, heq⟩ | ⟨hlt, -⟩ | ⟨hlt, -⟩ := hcases
  · rw [heq]
  all_goals omega

/-- **The wait for a timely chunk** ends with the program about to read, after one round for each
miss. -/
theorem exec_misses (hpc : s.pc = .select) (misses : List Miss)
    (hwait : misses = [] ∨ s.tries + misses.length < 3) :
    exec (recvStep env) s (misses.map (fun m => .select m.result) ++ [.select .ready]) =
      some { s with tries := s.tries + misses.length + 1, pc := .recv } := by
  induction misses generalizing s with
  | nil =>
    rw [List.map_nil, List.nil_append, exec_cons_eq_some]
    exact ⟨_, recvStep_select env hpc .ready, rfl⟩
  | cons m misses ih =>
    have hmore : s.tries + (misses.length + 1) < 3 := by simpa using hwait
    have hmiss : afterSelect s m.result = { s with tries := s.tries + 1 } := by
      cases m <;> exact if_pos (by omega)
    rw [List.map_cons, List.cons_append, exec_cons_eq_some]
    refine ⟨_, recvStep_select env hpc m.result, ?_⟩
    have hrest : s.tries + 1 + misses.length < 3 := by omega
    rw [hmiss, ih (s := { s with tries := s.tries + 1 }) hpc (.inr hrest)]
    simp only [List.length_cons, some.injEq, RecvState.mk.injEq, true_and, and_true]
    omega

/-- Behind an open chunk the program reads the next timely one. -/
theorem RecvState.Holds.next (h : s.Holds got) (hne : bytes ≠ [])
    (hroom : (got ++ bytes).length < recvBufferSize - 1) (hopen : bytes.getLast? ≠ some newline)
    {misses : List Miss} (hwait : misses = [] ∨ s.tries + misses.length < 3) :
    ∃ s', exec (recvStep env) s (.recv (.data bytes) ::
        (misses.map (fun m => .select m.result) ++ [.select .ready])) = some s' ∧
      s'.Holds (got ++ bytes) ∧ s'.tries = s.tries + misses.length + 1 ∧
      s'.executed = s.executed := by
  obtain ⟨s₁, heq, htries, hexec, ⟨hline, -⟩ | ⟨-, hpc, hoffset, htake⟩⟩ := h.chunk hne hroom
  · exact absurd hline hopen
  have hinv₁ : s₁.Inv := heq ▸ afterRecv_inv h.inv h.pc _
  have hstep : recvStep env s (.recv (.data bytes)) = some s₁ := by
    rw [recvStep_recv env h.pc, heq]
  have hwaits := exec_misses env hpc misses (htries ▸ hwait)
  refine ⟨_, (exec_cons_eq_some _).mpr ⟨s₁, hstep, hwaits⟩, ⟨?_, rfl, hoffset, htake⟩, ?_, hexec⟩
  · exact ⟨hinv₁.length, fun _ => hinv₁.room (by rw [hpc]; rfl), nofun⟩
  · dsimp only
    rw [htries]

theorem delivery_cons (bytes : List UInt8) (c : Chunk) (rest : List Chunk) :
    delivery bytes (c :: rest) =
      (.recv (.data bytes) :: (c.misses.map (fun m => .select m.result) ++ [.select .ready])) ++
        delivery c.bytes rest := by
  simp [delivery, Chunk.answers]

/-- **A request in timely chunks** is complete when its last chunk is read, with a terminator behind
it. -/
theorem RecvState.Holds.complete {text : List UInt8} {rest : List Chunk} (h : s.Holds got)
    (hne : bytes ≠ []) (htimely : Timely s.tries rest) (htext : newline ∉ text)
    (hlen : text.length + 1 < recvBufferSize - 1)
    (hall : got ++ received bytes rest = text ++ [newline]) :
    ∃ s', exec (recvStep env) s (delivery bytes rest) = some s' ∧ s'.pc = .execute ∧
      s'.buffer.take (text.length + 1) = text ++ [0] ∧ s'.executed = s.executed := by
  induction rest generalizing s got bytes with
  | nil =>
    have hall' : got ++ bytes = text ++ [newline] := by simpa [received] using hall
    have hroom : (got ++ bytes).length < recvBufferSize - 1 := by
      rw [hall', List.length_append]
      exact hlen
    have hlast : bytes.getLast? = some newline := by
      rw [← List.getLast?_append_of_ne_nil got hne, hall', List.getLast?_concat]
    obtain ⟨s₁, heq, -, hexec, ⟨-, hpc, htake⟩ | ⟨hopen, -⟩⟩ := h.chunk hne hroom
    · refine ⟨s₁, ?_, hpc, ?_, hexec⟩
      · rw [delivery, List.flatMap_nil, exec_cons_eq_some]
        exact ⟨s₁, by rw [recvStep_recv env h.pc, heq], rfl⟩
      · rw [hall', List.dropLast_concat, List.length_append] at htake
        exact htake
    · exact absurd hlast hopen
  | cons c rest ih =>
    obtain ⟨hc, hwait, hrest⟩ := htimely
    have hall' : got ++ bytes ++ received c.bytes rest = text ++ [newline] := by
      simpa [received, List.append_assoc] using hall
    -- What was read so far is a part of the text, so it does not end with a newline.
    obtain ⟨more, hmore⟩ : ∃ more, text = got ++ bytes ++ more := by
      rcases List.append_eq_append_iff.mp hall' with ⟨more, hmore, -⟩ | ⟨more, hmore, hend⟩
      · exact ⟨more, hmore⟩
      · cases more with
        | nil => exact ⟨[], by simpa using hmore.symm⟩
        | cons d more =>
          have hnil : received c.bytes rest = [] := by
            have hcount := congrArg List.length hend
            simp only [List.length_append, List.length_cons, List.length_nil] at hcount
            exact List.eq_nil_of_length_eq_zero (by omega)
          exact absurd (List.append_eq_nil_iff.mp hnil).1 hc
    have hroom : (got ++ bytes).length < recvBufferSize - 1 := by
      have := congrArg List.length hmore
      rw [List.length_append] at this
      omega
    have hopen : bytes.getLast? ≠ some newline := by
      intro hlast
      apply htext
      rw [hmore]
      simp [List.mem_of_getLast? hlast]
    obtain ⟨s₁, hrun, hholds, htries, hexec⟩ := h.next env hne hroom hopen hwait
    obtain ⟨s', hrun', hpc, htake, hexec'⟩ := ih hholds hc (htries ▸ hrest) hall'
    refine ⟨s', ?_, hpc, htake, hexec'.trans hexec⟩
    rw [delivery_cons, exec_append_eq_some]
    exact ⟨s₁, hrun, hrun'⟩

/-- A request is complete when a read ends with a newline and leaves room. -/
def Completes (got : List UInt8) (rest : List Chunk) : Prop :=
  ∃ k, (received got (rest.take k)).length < recvBufferSize - 1 ∧
    (received got (rest.take k)).getLast? = some newline

theorem RecvState.Holds.too_long_now (h : s.Holds got) (rest : List Chunk)
    (hfull : recvBufferSize - 1 ≤ (got ++ bytes).length) :
    ∃ sent unread s', delivery bytes rest = sent ++ unread ∧
      exec (recvStep env) s sent = some s' ∧ s'.pc = .deleted .tooLong ∧
      s'.executed = s.executed := by
  refine ⟨[.recv (.data bytes)], rest.flatMap Chunk.answers, _, rfl, ?_, h.overflow hfull,
    afterRecv_executed h.inv h.pc _⟩
  rw [exec_cons_eq_some]
  exact ⟨_, recvStep_recv env h.pc _, rfl⟩

theorem received_cons (got : List UInt8) (c : Chunk) (rest : List Chunk) :
    received got (c :: rest) = received (got ++ c.bytes) rest := by
  simp [received]

/-- **Input that fills the buffer** in timely chunks without completing loses the client. -/
theorem RecvState.Holds.too_long {rest : List Chunk} (h : s.Holds got) (hne : bytes ≠ [])
    (htimely : Timely s.tries rest) (hopen : ¬ Completes (got ++ bytes) rest)
    (hlen : recvBufferSize - 1 ≤ (received (got ++ bytes) rest).length) :
    ∃ sent unread s', delivery bytes rest = sent ++ unread ∧
      exec (recvStep env) s sent = some s' ∧ s'.pc = .deleted .tooLong ∧
      s'.executed = s.executed := by
  induction rest generalizing s got bytes with
  | nil => exact h.too_long_now env [] (by simpa [received] using hlen)
  | cons c rest ih =>
    obtain ⟨hc, hwait, hrest⟩ := htimely
    by_cases hfull : recvBufferSize - 1 ≤ (got ++ bytes).length
    · exact h.too_long_now env (c :: rest) hfull
    have hroom : (got ++ bytes).length < recvBufferSize - 1 := Nat.lt_of_not_ge hfull
    have hlast : bytes.getLast? ≠ some newline := by
      intro hlast
      rw [← List.getLast?_append_of_ne_nil got hne] at hlast
      exact hopen ⟨0, by simpa [received] using hroom, by simpa [received] using hlast⟩
    have hopen' : ¬ Completes (got ++ bytes ++ c.bytes) rest := by
      rintro ⟨k, hk⟩
      refine hopen ⟨k + 1, ?_⟩
      rwa [List.take_succ_cons, received_cons]
    obtain ⟨s₁, hrun, hholds, htries, hexec⟩ := h.next env hne hroom hlast hwait
    rw [received_cons] at hlen
    obtain ⟨sent, unread, s', hsplit, hrun', hpc, hexec'⟩ :=
      ih hholds hc (htries ▸ hrest) hopen' hlen
    refine ⟨_ ++ sent, unread, s', ?_, (exec_append_eq_some _).mpr ⟨s₁, hrun, hrun'⟩, hpc,
      hexec'.trans hexec⟩
    rw [delivery_cons, hsplit, List.append_assoc]

/-- **Framing of requests.** A request that comes in in timely chunks is executed once; 4095 bytes
without an end lose the client; and no read is outside of the buffer. Source: `unix_client_recv` -/
theorem request_framing (env : ExecEnv J R) (buffer : Vector UInt8 recvBufferSize) :
    (∀ text first rest, newline ∉ text → text.length ≤ 4093 → first ≠ [] → Timely 0 rest →
      received first rest = text ++ [newline] →
      ∃ s, exec (recvStep env) (.start buffer) (delivery first rest ++ [.execute]) = some s ∧
        s.buffer.take (text.length + 1) = text ++ [0] ∧
        s.executed = [CString.ofBuffer (text ++ [0])] ∧
        s.pc = .returned (unixCommandExecute env (CString.ofBuffer (text ++ [0]))) ∧
        (0 ∉ text → (CString.ofBuffer (text ++ [0])).bytes = text)) ∧
    (∀ first rest, first ≠ [] → Timely 0 rest → ¬ Completes first rest →
      4095 ≤ (received first rest).length →
      ∃ sent unread s, delivery first rest = sent ++ unread ∧
        exec (recvStep env) (.start buffer) sent = some s ∧ s.pc = .deleted .tooLong ∧
        s.executed = []) ∧
    ∀ answers s, exec (recvStep env) (.start buffer) answers = some s →
      s.pc ≠ .fault ∧
        (s.pc = .recv → 0 < recvSize s.offset ∧ s.offset + recvSize s.offset < recvBufferSize) := by
  have hstart : (RecvState.start buffer : RecvState R).Holds [] :=
    ⟨start_inv buffer, rfl, rfl, rfl⟩
  refine ⟨?_, ?_, ?_⟩
  · intro text first rest htext hlen hne htimely hall
    obtain ⟨s, hrun, hpc, htake, hexec⟩ :=
      hstart.complete env hne htimely htext (by rw [recvBufferSize]; omega) hall
    have hcommand : CString.ofBuffer s.buffer = CString.ofBuffer (text ++ [0]) := by
      rw [← List.take_append_drop (text.length + 1) s.buffer, htake]
      exact CString.ofBuffer_append (by simp) _
    refine ⟨_, (exec_append_eq_some _).mpr ⟨s, hrun, (exec_cons_eq_some _).mpr
      ⟨_, recvStep_execute env hpc, rfl⟩⟩, htake, ?_, ?_, CString.ofBuffer_bytes⟩
    · dsimp only
      rw [hexec, hcommand]
      rfl
    · dsimp only
      rw [hcommand]
  · intro first rest hne htimely hopen hlen
    exact hstart.too_long env hne htimely hopen hlen
  · intro answers s hrun
    have hinv : s.Inv := exec_invariant (fun _ _ _ => recvStep_inv) (start_inv buffer) hrun
    refine ⟨hinv.no_fault, fun hpc => ?_⟩
    have hroom : s.offset < recvBufferSize - 1 := hinv.room (by rw [hpc]; rfl)
    rw [recvSize_eq hroom]
    omega

def noCommands : ExecEnv Unit Unit where
  createObject := some ()
  parse _ := some ()
  commandName _ := some []
  commands := []
  addString _ _ _ := some ()
  send _ := 0

/-- `ping` in two chunks, the second after a timeout, is executed; 4095 bytes without a newline lose
the client. -/
theorem request_framing_ping :
    let buffer : Vector UInt8 recvBufferSize := .replicate recvBufferSize 0
    (∃ s, exec (recvStep noCommands) (.start buffer)
        (delivery [112, 105] [⟨[.timeout], [110, 103, newline]⟩] ++ [.execute]) = some s ∧
      s.executed.map CString.bytes = [[112, 105, 110, 103]]) ∧
    ∃ sent unread s, delivery (List.replicate 4095 97) [] = sent ++ unread ∧
      exec (recvStep noCommands) (.start buffer) sent = some s ∧ s.pc = .deleted .tooLong := by
  intro buffer
  obtain ⟨hexecuted, hlong, -⟩ := request_framing noCommands buffer
  constructor
  · obtain ⟨s, hrun, -, hcalls, -, htext⟩ := hexecuted [112, 105, 110, 103] [112, 105]
      [⟨[.timeout], [110, 103, newline]⟩] (by decide) (by decide) (by decide) (by simp [Timely])
      rfl
    exact ⟨s, hrun, by rw [hcalls, List.map_singleton, htext (by decide)]⟩
  · have hlength : ∀ k, (received (List.replicate 4095 97) ([].take k)).length = 4095 := by
      intro k
      rw [List.take_nil, received, List.flatMap_nil, List.append_nil, List.length_replicate]
    have hopen : ¬ Completes (List.replicate 4095 97) [] := by
      rintro ⟨k, hroom, -⟩
      rw [hlength] at hroom
      exact absurd hroom (by decide)
    obtain ⟨sent, unread, s, hsent, hrun, hpc, -⟩ := hlong (List.replicate 4095 97) []
      (List.cons_ne_nil _ _) trivial hopen (hlength 0).ge
    exact ⟨sent, unread, s, hsent, hrun, hpc⟩

end CloudProbe.Worker
