import CloudProbe.Lib.Delimited

/-!
# One request at a time over a stream

A client and a server exchange lines, ended by the symbol `sep`, and read in pieces. The server
looks at what it holds when that ends with `sep`: it answers the first line of it and throws away
the rest. Each symbol carries the exchange it belongs to; no operation looks at this mark.

* **The channel** (`Channel`): what is on its way, and what the server holds.
* **The exchange** (`Channel.Awaits`): the state of a channel that was empty when the request was
  written. It lasts until the client has a line, and that line is the answer to the request, with
  nothing left behind (`Awaits.line`).
-/

namespace CloudProbe.Lib

open List

variable {α ω : Type*}

/-- A symbol on the stream with the exchange it belongs to. -/
structure Marked (α ω : Type*) where
  sym : α
  owner : ω
deriving DecidableEq

def mark (o : ω) (l : List α) : List (Marked α ω) := l.map fun a => ⟨a, o⟩

def syms (l : List (Marked α ω)) : List α := l.map Marked.sym

@[simp] theorem syms_nil : syms ([] : List (Marked α ω)) = [] := rfl

@[simp] theorem syms_append (l l' : List (Marked α ω)) : syms (l ++ l') = syms l ++ syms l' :=
  map_append

@[simp] theorem syms_mark (o : ω) (l : List α) : syms (mark o l) = l := by
  rw [syms, mark, map_map]
  exact map_id l

def firstLine [DecidableEq α] (sep : α) (l : List α) : List α := l.takeWhile (· ≠ sep) ++ [sep]

section Lines

variable {sep : α} {w : List α}

theorem takeWhile_line [DecidableEq α] (hw : sep ∉ w) :
    (w ++ [sep]).takeWhile (· ≠ sep) = w := by
  have hall : ∀ a ∈ w, decide (a ≠ sep) = true :=
    fun a ha => decide_eq_true (fun heq => hw (heq ▸ ha))
  rw [takeWhile_append_of_pos hall, takeWhile_cons]
  simp

theorem firstLine_line [DecidableEq α] (hw : sep ∉ w) :
    firstLine sep (w ++ [sep]) = w ++ [sep] := by
  rw [firstLine, takeWhile_line hw]

theorem eq_nil_of_sep_mem {u v : List α} (h : u ++ v = w ++ [sep]) (hw : sep ∉ w)
    (hu : sep ∈ u) : v = [] := by
  rcases eq_nil_or_concat v with rfl | ⟨v', b, rfl⟩
  · rfl
  · rw [concat_eq_append, ← append_assoc] at h
    obtain ⟨rfl, -⟩ := append_inj' h rfl
    exact absurd (mem_append_left v' hu) hw

end Lines

/-! ## The channel -/

/-- The two directions of a stream, and what the server has read of a request. -/
structure Channel (α ω : Type*) where
  toServer : List (Marked α ω)
  held : List (Marked α ω)
  toClient : List (Marked α ω)
deriving DecidableEq

namespace Channel

def empty : Channel α ω := ⟨[], [], []⟩

def write (ch : Channel α ω) (o : ω) (l : List α) : Channel α ω :=
  { ch with toServer := ch.toServer ++ mark o l }

def serverRead (ch : Channel α ω) (k : ℕ) : Channel α ω :=
  { ch with toServer := ch.toServer.drop k, held := ch.held ++ ch.toServer.take k }

@[simp] theorem serverRead_empty (k : ℕ) : (empty : Channel α ω).serverRead k = empty := by
  simp [serverRead, empty]

/-- What the server holds ends with the separator: the first line of it, with its exchange. -/
def request [DecidableEq α] (sep : α) (ch : Channel α ω) : Option (ω × List α) :=
  if (syms ch.held).getLast? = some sep then
    ch.held.head?.map fun m => (m.owner, (syms ch.held).takeWhile (· ≠ sep))
  else none

def answer (ch : Channel α ω) (sep : α) (o : ω) (reply : List α) : Channel α ω :=
  { ch with held := [], toClient := ch.toClient ++ mark o (reply ++ [sep]) }

/-- The client reads a piece: the first `k` symbols. -/
def read (ch : Channel α ω) (k : ℕ) : Channel α ω := { ch with toClient := ch.toClient.drop k }

/-- The exchange `o` on a channel: its request is on the way or held by the server, or the answer is
on the way to the client, who has `buf` of it. `Answered` are the answers the server gave. -/
inductive Awaits (sep : α) (o : ω) (text : List α) (Answered : List α → Prop) :
    Channel α ω → List (Marked α ω) → Prop
  | asked {ch : Channel α ω} (hclient : ch.toClient = [])
      (hserver : ch.held ++ ch.toServer = mark o (text ++ [sep])) :
      Awaits sep o text Answered ch []
  | answered {ch : Channel α ω} {buf : List (Marked α ω)} (reply : List α) (h : Answered reply)
      (hreply : sep ∉ reply) (hbuf : sep ∉ syms buf) (hheld : ch.held = [])
      (hserver : ch.toServer = []) (hclient : buf ++ ch.toClient = mark o (reply ++ [sep])) :
      Awaits sep o text Answered ch buf

section Exchange

variable {sep : α} {o o' : ω} {text text' reply : List α} {Answered Answered' : List α → Prop}
  {ch : Channel α ω} {buf : List (Marked α ω)}

theorem awaits_write : Awaits sep o text Answered (empty.write o (text ++ [sep])) [] :=
  .asked rfl rfl

theorem Awaits.mono (h : Awaits sep o text Answered ch buf)
    (hle : ∀ reply, Answered reply → Answered' reply) : Awaits sep o text Answered' ch buf := by
  cases h with
  | asked hclient hserver => exact .asked hclient hserver
  | answered reply h hreply hbuf hheld hserver hclient =>
    exact .answered reply (hle reply h) hreply hbuf hheld hserver hclient

theorem Awaits.serverRead (h : Awaits sep o text Answered ch buf) (k : ℕ) :
    Awaits sep o text Answered (ch.serverRead k) buf := by
  cases h with
  | asked hclient hserver =>
    refine .asked hclient ?_
    rw [Channel.serverRead, append_assoc, take_append_drop, hserver]
  | answered reply h hreply hbuf hheld hserver hclient =>
    refine .answered reply h hreply hbuf ?_ ?_ hclient
    · rw [Channel.serverRead, hheld, hserver, take_nil, append_nil]
    · rw [Channel.serverRead, hserver, drop_nil]

variable [DecidableEq α]

/-- The server finds the request of the exchange that is awaited. -/
theorem Awaits.request_eq (h : Awaits sep o text Answered ch buf) (htext : sep ∉ text)
    (hrequest : ch.request sep = some (o', text')) :
    o' = o ∧ text' = text ∧ ch.toServer = [] ∧ ch.toClient = [] ∧ buf = [] := by
  rw [request, Option.ite_none_right_eq_some] at hrequest
  obtain ⟨hlast, hhead⟩ := hrequest
  cases h with
  | asked hclient hserver =>
    have hsyms : syms ch.held ++ syms ch.toServer = text ++ [sep] := by
      rw [← syms_append, hserver, syms_mark]
    have hnil : ch.toServer = [] := map_eq_nil_iff.mp
      (eq_nil_of_sep_mem hsyms htext (mem_of_getLast? hlast))
    rw [hnil, append_nil] at hserver
    rw [hserver, syms_mark, takeWhile_line htext] at hhead
    obtain ⟨m, hm, heq⟩ := Option.map_eq_some_iff.mp hhead
    have hmark : m ∈ mark o (text ++ [sep]) := mem_of_head? hm
    obtain ⟨a, -, rfl⟩ := mem_map.mp hmark
    obtain ⟨rfl, rfl⟩ := Prod.mk.inj heq
    exact ⟨rfl, rfl, hnil, hclient, rfl⟩
  | answered reply h hreply hbuf hheld hserver hclient =>
    rw [hheld] at hlast
    cases hlast

theorem Awaits.answer (h : Awaits sep o text Answered ch buf) (htext : sep ∉ text)
    (hrequest : ch.request sep = some (o', text')) (hreply : sep ∉ reply)
    (hanswered : Answered reply) : Awaits sep o text Answered (ch.answer sep o' reply) buf := by
  obtain ⟨rfl, -, hserver, hclient, rfl⟩ := h.request_eq htext hrequest
  refine .answered reply hanswered hreply not_mem_nil rfl hserver ?_
  rw [Channel.answer, hclient]
  rfl

omit [DecidableEq α] in
theorem Awaits.read (h : Awaits sep o text Answered ch buf) (k : ℕ)
    (hline : sep ∉ syms (buf ++ ch.toClient.take k)) :
    Awaits sep o text Answered (ch.read k) (buf ++ ch.toClient.take k) := by
  cases h with
  | asked hclient hserver =>
    rw [hclient, take_nil]
    refine .asked ?_ hserver
    rw [Channel.read, hclient, drop_nil]
  | answered reply h hreply hbuf hheld hserver hclient =>
    refine .answered reply h hreply hline hheld hserver ?_
    rw [Channel.read, append_assoc, take_append_drop, hclient]

omit [DecidableEq α] in
/-- **The line the client reads is the answer**, and the channel is empty again. -/
theorem Awaits.line (h : Awaits sep o text Answered ch buf) (k : ℕ)
    (hline : sep ∈ syms (buf ++ ch.toClient.take k)) :
    ∃ reply, Answered reply ∧ sep ∉ reply ∧
      syms (buf ++ ch.toClient.take k) = reply ++ [sep] ∧ ch.read k = empty := by
  cases h with
  | asked hclient hserver =>
    rw [hclient, take_nil] at hline
    cases hline
  | answered reply h hreply hbuf hheld hserver hclient =>
    have hsplit : (buf ++ ch.toClient.take k) ++ ch.toClient.drop k =
        mark o (reply ++ [sep]) := by
      rw [append_assoc, take_append_drop, hclient]
    have hsyms : syms (buf ++ ch.toClient.take k) ++ syms (ch.toClient.drop k) =
        reply ++ [sep] := by
      rw [← syms_append, hsplit, syms_mark]
    have hnil : ch.toClient.drop k = [] := map_eq_nil_iff.mp
      (eq_nil_of_sep_mem hsyms hreply hline)
    rw [hnil, syms_nil, append_nil] at hsyms
    exact ⟨reply, h, hreply, hsyms, by rw [Channel.read, hheld, hserver, hnil, empty]⟩

end Exchange

end Channel

end CloudProbe.Lib
