import CloudProbe.Lib.LineChannel
import Mathlib.Logic.Function.Basic

/-!
# The client of the worker's command socket

`UnixClient` keeps one connection behind a mutex. `RunCommand` holds the mutex while it takes the
connection or makes one; it writes and reads after it has released the mutex. After an error it
calls `Close`, which closes the connection the client has by then.

* **Calls** (`Pc`): every call is a process of its own; a run is any interleaving of them.
* **Connections** (`Conn`): a write is one step, since it holds the write lock, and may stop early.
  A reader hands on what it has up to the first newline; the rest of its buffer is lost with it.
* **The server** (`serverRead`, `serverAnswer`, `serverClose`) reads in pieces and answers the first
  request of what it has read, as `unix_client_recv` does.

Dialing, timeouts and errors are in the actions. What `json.Unmarshal` makes of a reply is a
parameter.

Sources without a file are in `cpworker/unix_client.go`.
-/

namespace CloudProbe.Golib

open Lib

def newline : UInt8 := 10

/-- Text without a newline, as `json.Marshal` and `cJSON_PrintUnformatted` write it. -/
structure Line where
  text : List UInt8
  newline_notMem : newline ∉ text

def Line.data (line : Line) : List UInt8 := line.text ++ [newline]

def ascii (text : String) : List UInt8 := text.toList.map fun ch => UInt8.ofNat ch.toNat

/-- Source: `handshake` -/
def versionLine : Line := ⟨ascii "\x7b\"version\":\"v1\"\x7d", by decide⟩

/-- A call; `cmdData` is `none` when `json.Marshal` refuses the arguments.
Source: `RunCommand`, `Close`, `Dial` -/
inductive CallKind where
  | runCommand (cmdData : Option Line)
  | close
  | dial

/-- What the client makes of a reply: no JSON, no `"status": "OK"`, or a reply to return.
Source: `RunCommand`, `handshake` -/
inductive Decoded where
  | invalid
  | notOk
  | ok
deriving DecidableEq

/-- The calls that are made, and the decoder. -/
structure Program where
  calls : ℕ → CallKind
  decode : List UInt8 → Decoded

/-- An exchange: the handshake or the command of a call. -/
structure Owner where
  call : ℕ
  handshake : Bool
deriving DecidableEq

def Program.line (P : Program) (o : Owner) : Option Line :=
  if o.handshake then some versionLine
  else
    match P.calls o.call with
    | .runCommand cmdData => cmdData
    | _ => none

inductive Result where
  | reply (data : List UInt8)
  | error
  | done
deriving DecidableEq

/-- Where a call is. The exchange on a connection is the handshake when `handshake` is set; it is
made while the mutex is held. -/
inductive Pc where
  | called
  | locked
  | haveConn (handshake : Bool) (conn : ℕ)
  | receiving (handshake : Bool) (conn : ℕ) (buf : List (Marked UInt8 Owner))
  | failed (handshake : Bool) (conn : ℕ)
  | closing
  | returned (r : Result)
deriving DecidableEq

/-- A connection. `pending` are the exchanges whose request was written, in whole or in part, and
whose call has not read a reply. -/
structure Conn where
  isOpen : Bool
  served : Bool
  channel : Channel UInt8 Owner
  pending : List Owner

def Conn.unused : Conn := ⟨false, false, .empty, []⟩

/-- The write of the first `n` bytes of a line.
Source: `send` -/
def Conn.write (x : Conn) (o : Owner) (line : Line) (n : ℕ) : Conn :=
  if n = 0 then x
  else { x with
    channel := x.channel.write o (line.data.take n)
    pending := x.pending ++ [o] }

/-- The read that completes a line: the exchange is over. -/
def Conn.readLine (x : Conn) (o : Owner) (k : ℕ) : Conn :=
  { x with channel := x.channel.read k, pending := x.pending.erase o }

structure Answer where
  conn : ℕ
  owner : Owner
  request : List UInt8
  reply : List UInt8
deriving DecidableEq

/-- The client with all its calls, its connections and the answers of the server.
Source: `UnixClient` -/
structure Client where
  mu : Option ℕ
  conn : Option ℕ
  conns : ℕ → Conn
  nextConn : ℕ
  pc : ℕ → Pc
  answers : List Answer

namespace Client

def init : Client := ⟨none, none, fun _ => .unused, 0, fun _ => .called, []⟩

def setPc (s : Client) (i : ℕ) (p : Pc) : Client := { s with pc := Function.update s.pc i p }

def setConn (s : Client) (c : ℕ) (x : Conn) : Client :=
  { s with conns := Function.update s.conns c x }

/-- `conn.Close()`.
Source: `closeConn` -/
def closeConn (s : Client) (c : ℕ) : Client := s.setConn c { s.conns c with isOpen := false }

end Client

/-- What happens. `send` writes `n` bytes; `recv` and `serverRead` read `k` bytes. -/
inductive Action where
  | lock (i : ℕ)
  | useConn (i : ℕ)
  | dialContext (i : ℕ) (ok : Bool)
  | marshalFails (i : ℕ)
  | send (i n : ℕ)
  | recv (i k : ℕ)
  | recvFails (i : ℕ)
  | closeDialed (i : ℕ)
  | close (i : ℕ)
  | serverRead (c k : ℕ)
  | serverAnswer (c : ℕ) (reply : Line)
  | serverClose (c : ℕ)

namespace Program

variable (P : Program)

/-- The place behind `c.mu.Lock()`: the beginning of `RunCommand` and `Dial`, or `Close`, which
`RunCommand` calls after an error, too. -/
def afterLock (i : ℕ) : Pc → Option Pc
  | .called =>
    match P.calls i with
    | .close => some .closing
    | _ => some .locked
  | .failed false _ => some .closing
  | _ => none

/-- The place behind `c.mu.Unlock()` with a connection: `Dial` is done.
Source: `RunCommand`, `Dial` -/
def afterConn (i c : ℕ) : Pc :=
  match P.calls i with
  | .runCommand _ => .haveConn false c
  | _ => .returned .done

/-- What a call returns after `Close`. -/
def afterClose (i : ℕ) : Result :=
  match P.calls i with
  | .runCommand _ => .error
  | _ => .done

/-- A call has read a line in an exchange on connection `c`.
Source: `handshake`, `dial`, `RunCommand` -/
def received (s : Client) (i : ℕ) (handshake : Bool) (c : ℕ) (data : List UInt8) : Client :=
  match handshake, P.decode data with
  | true, .ok => { s with conn := some c, mu := none }.setPc i (P.afterConn i c)
  | true, _ => s.setPc i (.failed true c)
  | false, .ok => s.setPc i (.returned (.reply data))
  | false, .notOk => s.setPc i (.returned .error)
  | false, .invalid => s.setPc i (.failed false c)

/-- One step; `none` when the action is not possible.
Source: `cpworker/unix_client.go`; `unix-manager.c` `unix_client_recv` -/
def step (s : Client) : Action → Option Client
  | .lock i =>
    if s.mu = none then
      (P.afterLock i (s.pc i)).map fun p => { s with mu := some i }.setPc i p
    else none
  | .useConn i =>
    match s.pc i, s.conn with
    | .locked, some c => some ({ s with mu := none }.setPc i (P.afterConn i c))
    | _, _ => none
  | .dialContext i ok =>
    match s.pc i, s.conn with
    | .locked, none =>
      if ok then
        some (({ s with nextConn := s.nextConn + 1 }.setConn s.nextConn
          ⟨true, true, .empty, []⟩).setPc i (.haveConn true s.nextConn))
      else some ({ s with mu := none }.setPc i (.returned .error))
    | _, _ => none
  | .marshalFails i =>
    match s.pc i, P.line ⟨i, false⟩ with
    | .haveConn false _, none => some (s.setPc i (.returned .error))
    | _, _ => none
  | .send i n =>
    match s.pc i with
    | .haveConn handshake c =>
      match P.line ⟨i, handshake⟩ with
      | some line =>
        let x := s.conns c
        -- nothing can be written to a connection that one end has closed
        if n ≤ line.data.length ∧ (0 < n → x.isOpen ∧ x.served) then
          some ((s.setConn c (x.write ⟨i, handshake⟩ line n)).setPc i
            (if n = line.data.length then .receiving handshake c []
            else .failed handshake c))
        else none
      | none => none
    | _ => none
  | .recv i k =>
    match s.pc i with
    | .receiving handshake c buf =>
      let x := s.conns c
      if x.isOpen ∧ 0 < k ∧ k ≤ x.channel.toClient.length then
        let buf' := buf ++ x.channel.toClient.take k
        if newline ∈ syms buf' then
          some (P.received (s.setConn c (x.readLine ⟨i, handshake⟩ k)) i handshake c
            (firstLine newline (syms buf')))
        else
          some ((s.setConn c { x with channel := x.channel.read k }).setPc i
            (.receiving handshake c buf'))
      else none
    | _ => none
  | .recvFails i =>
    match s.pc i with
    | .receiving handshake c _ => some (s.setPc i (.failed handshake c))
    | _ => none
  | .closeDialed i =>
    match s.pc i with
    | .failed true c => some (({ s with mu := none }.closeConn c).setPc i (.returned .error))
    | _ => none
  | .close i =>
    match s.pc i, s.conn with
    | .closing, some c =>
      some (({ s with mu := none, conn := none }.closeConn c).setPc i
        (.returned (P.afterClose i)))
    | .closing, none => some ({ s with mu := none }.setPc i (.returned (P.afterClose i)))
    | _, _ => none
  | .serverRead c k =>
    let x := s.conns c
    -- what the server has read is executed before it reads on
    if x.served ∧ (x.channel.request newline).isNone ∧ 0 < k ∧
        k ≤ x.channel.toServer.length then
      some (s.setConn c { x with channel := x.channel.serverRead k })
    else none
  | .serverAnswer c reply =>
    let x := s.conns c
    match x.channel.request newline with
    | some (owner, request) =>
      if x.served then
        some { s.setConn c { x with
            channel := x.channel.answer newline owner reply.text } with
          answers := s.answers ++ [⟨c, owner, request, reply.text⟩] }
      else none
    | none => none
  | .serverClose c =>
    if (s.conns c).served then some (s.setConn c { s.conns c with served := false }) else none

end Program

/-! ## What a call is owed -/

/-- `data` is the server's reply to the command of call `i`. -/
def Replied (P : Program) (answers : List Answer) (i : ℕ) (data : List UInt8) : Prop :=
  ∃ line a, P.line ⟨i, false⟩ = some line ∧ a ∈ answers ∧ a.owner = ⟨i, false⟩ ∧
    a.request = line.text ∧ data = a.reply ++ [newline]

/-- Every call that returned a reply returned the server's reply to the command it sent. -/
def Client.Matched (P : Program) (s : Client) : Prop :=
  ∀ i data, s.pc i = .returned (.reply data) → Replied P s.answers i data

/-- At most one request is outstanding on a connection. -/
def Client.OneOutstanding (s : Client) : Prop := ∀ c, (s.conns c).pending.length ≤ 1

/-- A command is written to a connection only while no request is outstanding on it. -/
def Client.sendsAlone (s : Client) : Action → Bool
  | .send i n =>
    match s.pc i with
    | .haveConn false c => n = 0 || (s.conns c).pending.isEmpty
    | _ => true
  | _ => true

end CloudProbe.Golib
