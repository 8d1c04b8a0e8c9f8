import CloudProbe.Golib.UnixClient
import Mathlib.Data.Int.Notation
import Mathlib.Data.List.TakeDrop
import Mathlib.Data.Nat.Basic

/-!
# How a reply leaves the command socket

A reply that fits the buffer of the client is sent with one call of `send`, a longer one with a
loop. Which one is taken is decided by the rendering alone (`Rendering`).

* **The kernel** (`SendResult`): what the calls of `send` return. A count takes bytes off the front
  of what is left. Outcomes are `none` as long as the next call has not returned.
* **The loop** (`sendLoop_spec`) keeps the contract: it returns 0 with every byte accepted, in order
  and once, and -1 with less than that.
* **One call** (`sendOnce`) returns 0 for a short count, and gives up when it is interrupted.
-/

namespace CloudProbe.Worker

open Golib List

def clientBufferSize : ℕ := 4096

/-- What a call of `send` returns: the number of bytes accepted (all of them if the number is past
the end), or -1 with an `errno`. A send timeout is `EAGAIN`. -/
inductive SendResult where
  | sent (n : ℕ)
  | eintr
  | timeout
  | error
deriving DecidableEq

/-- What the function returns, and the bytes the kernel has accepted by then, in order. -/
structure SendOutcome where
  rc : ℤ
  delivered : List UInt8
deriving DecidableEq

/-- How a reply is rendered: whether `cJSON_PrintPreallocated` fits it and its terminator into the
buffer, whether `cJSON_PrintUnformatted` returns it, and whether `realloc` finds room for the
newline. cJSON may refuse the buffer although the text fits. -/
structure Rendering (text : List UInt8) where
  preallocated : Bool
  unformatted : Bool
  realloc : Bool
  fits : preallocated = true → text.length + 1 ≤ clientBufferSize - 1

/-- The one call of the fast path.
Source: `unix-manager.c` `unix_client_send` -/
def sendOnce (out : List UInt8) : List SendResult → Option SendOutcome
  | [] => none
  | .sent n :: _ => some ⟨0, out.take n⟩
  | .eintr :: _ => some ⟨-1, []⟩
  | .timeout :: _ => some ⟨-1, []⟩
  | .error :: _ => some ⟨-1, []⟩

/-- The loop of the slow path; `sentTotal` is the code's, `delivered` what the kernel accepted.
Source: `unix-manager.c` `unix_client_send` -/
def sendLoop (out : List UInt8) : ℕ → List UInt8 → List SendResult → Option SendOutcome
  | sentTotal, delivered, [] =>
    if sentTotal < out.length then none else some ⟨0, delivered⟩
  | sentTotal, delivered, result :: results =>
    if sentTotal < out.length then
      match result with
      | .sent n =>
        let accepted := (out.drop sentTotal).take n
        sendLoop out (sentTotal + accepted.length) (delivered ++ accepted) results
      | .eintr => sendLoop out sentTotal delivered results
      | .timeout => some ⟨-1, delivered⟩
      | .error => some ⟨-1, delivered⟩
    else some ⟨0, delivered⟩

/-- Source: `unix-manager.c` `unix_client_send` -/
def unixClientSend {text : List UInt8} (render : Rendering text) (results : List SendResult) :
    Option SendOutcome :=
  if render.preallocated = true ∧ text.length < clientBufferSize - 1 then
    sendOnce (text ++ [newline]) results
  else if render.unformatted = false then some ⟨-1, []⟩
  else if render.realloc = false then some ⟨-1, []⟩
  else sendLoop (text ++ [newline]) 0 [] results

/-! ## The loop -/

section Loop

variable {out : List UInt8}

variable {sentTotal : ℕ}

theorem sendLoop_done (h : ¬ sentTotal < out.length) (delivered : List UInt8)
    (results : List SendResult) :
    sendLoop out sentTotal delivered results = some ⟨0, delivered⟩ := by
  cases results with
  | nil => exact if_neg h
  | cons result results => cases result <;> exact if_neg h

theorem sendLoop_sent (h : sentTotal < out.length) (n : ℕ) (results : List SendResult) :
    sendLoop out sentTotal (out.take sentTotal) (.sent n :: results) =
      sendLoop out (min (sentTotal + n) out.length) (out.take (min (sentTotal + n) out.length))
        results := by
  have htotal : sentTotal + ((out.drop sentTotal).take n).length =
      min (sentTotal + n) out.length := by
    rw [length_take, length_drop]
    omega
  have htake : out.take sentTotal ++ (out.drop sentTotal).take n =
      out.take (min (sentTotal + n) out.length) := by
    rw [← take_eq_take_min, take_add]
  rw [sendLoop, if_pos h]
  dsimp only
  rw [htotal, htake]

/-- **The loop keeps the contract.** It returns 0 once every byte is accepted, and -1 with a part of
them. -/
theorem sendLoop_spec {results : List SendResult} {outcome : SendOutcome}
    (hsent : sentTotal ≤ out.length)
    (hrun : sendLoop out sentTotal (out.take sentTotal) results = some outcome) :
    outcome = ⟨0, out⟩ ∨
      ∃ n, sentTotal ≤ n ∧ n < out.length ∧ outcome = ⟨-1, out.take n⟩ := by
  induction results generalizing sentTotal with
  | nil =>
    rw [sendLoop] at hrun
    split_ifs at hrun with hmore
    cases hrun
    left
    rw [take_of_length_le (Nat.le_of_not_lt hmore)]
  | cons result results ih =>
    by_cases hmore : sentTotal < out.length
    · cases result with
      | sent n =>
        rw [sendLoop_sent hmore] at hrun
        obtain hall | ⟨m, hm, hlt, hpart⟩ := ih (by omega) hrun
        · exact Or.inl hall
        · exact Or.inr ⟨m, by omega, hlt, hpart⟩
      | eintr =>
        rw [sendLoop, if_pos hmore] at hrun
        exact ih hsent hrun
      | timeout | error =>
        rw [sendLoop, if_pos hmore] at hrun
        cases hrun
        exact Or.inr ⟨sentTotal, le_rfl, hmore, rfl⟩
    · rw [sendLoop_done hmore] at hrun
      cases hrun
      left
      rw [take_of_length_le (Nat.le_of_not_lt hmore)]

/-- No byte is accepted before a call fails for good. -/
def Refused : List SendResult → Prop
  | [] => False
  | .sent n :: results => n = 0 ∧ Refused results
  | .eintr :: results => Refused results
  | .timeout :: _ => True
  | .error :: _ => True

/-- When the loop fails with nothing accepted. -/
theorem sendLoop_eq_refused_iff (hout : out ≠ []) (results : List SendResult) :
    sendLoop out 0 [] results = some ⟨-1, []⟩ ↔ Refused results := by
  have hpos : 0 < out.length := length_pos_iff.mpr hout
  induction results with
  | nil =>
    rw [sendLoop, if_pos hpos]
    exact ⟨nofun, False.elim⟩
  | cons result results ih =>
    cases result with
    | sent n =>
      have hstep := sendLoop_sent hpos n results
      rw [take_zero, Nat.zero_add] at hstep
      rw [hstep, Refused]
      cases n with
      | zero =>
        rw [Nat.zero_min, take_zero]
        exact ih.trans ⟨fun h => ⟨rfl, h⟩, And.right⟩
      | succ n =>
        refine ⟨fun hrun => ?_, fun h => nomatch h.1⟩
        -- at least one byte was accepted, and it stays delivered
        obtain hall | ⟨m, hm, -, hpart⟩ := sendLoop_spec (Nat.min_le_right _ _) hrun
        · cases hall
        · have hnil : out.take m = [] := (SendOutcome.mk.inj hpart).2.symm
          have hzero := congrArg List.length hnil
          rw [length_take, length_nil] at hzero
          omega
    | eintr =>
      rw [sendLoop, if_pos hpos]
      exact ih
    | timeout | error =>
      rw [sendLoop, if_pos hpos]
      exact iff_of_true rfl trivial

end Loop

/-! ## Both paths -/

/-- The results for which one call does what the loop does: the first call accepts everything or
fails for good, or it is interrupted and all that follows is refused. -/
def OneCallSuffices (length : ℕ) : List SendResult → Prop
  | [] => True
  | .sent n :: _ => length ≤ n
  | .eintr :: results => Refused results
  | .timeout :: _ => True
  | .error :: _ => True

/-- The fast path does as the loop when one call suffices. -/
theorem sendOnce_agrees_iff {out : List UInt8} (hout : out ≠ []) (results : List SendResult) :
    ((∀ outcome, sendOnce out results = some outcome → outcome.rc = 0 → outcome.delivered = out) ∧
      sendOnce out results = sendLoop out 0 [] results) ↔ OneCallSuffices out.length results := by
  have hpos : 0 < out.length := length_pos_iff.mpr hout
  have hfailed : ∀ outcome, some (SendOutcome.mk (-1) []) = some outcome → outcome.rc = 0 →
      outcome.delivered = out := by
    intro outcome hrun hrc
    cases hrun
    cases hrc
  cases results with
  | nil => exact iff_of_true ⟨nofun, (if_pos hpos).symm⟩ trivial
  | cons result results =>
    cases result with
    | sent n =>
      constructor
      · rintro ⟨hwhole, -⟩
        exact (take_eq_self_iff out).mp (hwhole _ rfl rfl)
      · intro hall
        have htake : out.take n = out := take_of_length_le hall
        refine ⟨?_, ?_⟩
        · intro outcome hrun _
          cases hrun
          exact htake
        · have hstep := sendLoop_sent hpos n results
          rw [take_zero, Nat.zero_add, Nat.min_eq_right hall, take_length,
            sendLoop_done (lt_irrefl _)] at hstep
          rw [hstep, sendOnce, htake]
    | eintr =>
      rw [sendLoop, if_pos hpos, OneCallSuffices, ← sendLoop_eq_refused_iff hout]
      exact ⟨fun h => h.2.symm, fun h => ⟨hfailed, h.symm⟩⟩
    | timeout | error => exact iff_of_true ⟨hfailed, (if_pos hpos).symm⟩ trivial

def Rendering.inBuffer {text : List UInt8} (h : text.length + 1 ≤ clientBufferSize - 1) :
    Rendering text := ⟨true, true, true, fun _ => h⟩

def Rendering.onHeap (text : List UInt8) : Rendering text := ⟨false, true, true, nofun⟩

theorem unixClientSend_preallocated {text : List UInt8} {render : Rendering text}
    (h : render.preallocated = true) (results : List SendResult) :
    unixClientSend render results = sendOnce (text ++ [newline]) results :=
  if_pos ⟨h, render.fits h⟩

theorem unixClientSend_heap {text : List UInt8} {render : Rendering text}
    (h : render.preallocated = false) (results : List SendResult) :
    unixClientSend render results =
      if render.unformatted = true ∧ render.realloc = true then
        sendLoop (text ++ [newline]) 0 [] results
      else some ⟨-1, []⟩ := by
  rw [unixClientSend, h, if_neg fun hfast => nomatch hfast.1]
  cases render.unformatted <;> cases render.realloc <;> rfl

/-- **Whole or reported as failed**, in the buffer as on the heap, exactly if the reply does not fit
the buffer or one call suffices. -/
theorem reply_delivered_whole_iff (text : List UInt8) (results : List SendResult) :
    ((∀ (render : Rendering text) (outcome : SendOutcome),
        unixClientSend render results = some outcome → outcome.rc = 0 →
          outcome.delivered = text ++ [newline]) ∧
      (∀ buffered heap : Rendering text, buffered.preallocated = true →
        heap.preallocated = false → heap.unformatted = true → heap.realloc = true →
          unixClientSend buffered results = unixClientSend heap results)) ↔
      (text.length + 1 ≤ clientBufferSize - 1 →
        OneCallSuffices (text ++ [newline]).length results) := by
  have hout : text ++ [newline] ≠ [] := by simp
  constructor
  · rintro ⟨hwhole, hsame⟩ hfits
    have hbuffered : unixClientSend (.inBuffer hfits) results =
        sendOnce (text ++ [newline]) results := unixClientSend_preallocated rfl results
    have hheap : unixClientSend (.onHeap text) results =
        sendLoop (text ++ [newline]) 0 [] results := unixClientSend_heap rfl results
    have hboth := hsame (.inBuffer hfits) (.onHeap text) rfl rfl rfl rfl
    rw [hbuffered, hheap] at hboth
    exact (sendOnce_agrees_iff hout results).mp ⟨hbuffered ▸ hwhole (.inBuffer hfits), hboth⟩
  · intro hone
    refine ⟨?_, ?_⟩
    · intro render outcome hrun hrc
      cases hpath : render.preallocated with
      | true =>
        rw [unixClientSend_preallocated hpath] at hrun
        have hagrees := (sendOnce_agrees_iff hout results).mpr (hone (render.fits hpath))
        exact hagrees.1 outcome hrun hrc
      | false =>
        rw [unixClientSend_heap hpath] at hrun
        split_ifs at hrun
        · obtain rfl | ⟨n, -, -, rfl⟩ := sendLoop_spec (Nat.zero_le _) hrun
          · rfl
          · cases hrc
        · cases hrun
          cases hrc
    · intro buffered heap hbuffered hheap hunformatted hrealloc
      rw [unixClientSend_preallocated hbuffered, unixClientSend_heap hheap,
        if_pos ⟨hunformatted, hrealloc⟩]
      exact ((sendOnce_agrees_iff hout results).mpr (hone (buffered.fits hbuffered))).2

/-- The reply to the handshake.
Source: `unix-manager.c` `unix_manager_accept` -/
def okReply : List UInt8 := ascii "\x7b\"status\":\"OK\"\x7d"

theorem okReply_fits : okReply.length + 1 ≤ clientBufferSize - 1 := by
  decide

/-- A call that accepts five bytes, or is interrupted: the fast path returns 0 or fails, the loop
goes on. -/
theorem short_send_reported_as_success :
    unixClientSend (.inBuffer okReply_fits) [.sent 5, .sent 11] = some ⟨0, okReply.take 5⟩ ∧
      unixClientSend (.onHeap okReply) [.sent 5, .sent 11] = some ⟨0, okReply ++ [newline]⟩ ∧
      unixClientSend (.inBuffer okReply_fits) [.eintr, .sent 16] = some ⟨-1, []⟩ ∧
      unixClientSend (.onHeap okReply) [.eintr, .sent 16] = some ⟨0, okReply ++ [newline]⟩ := by
  decide

end CloudProbe.Worker
