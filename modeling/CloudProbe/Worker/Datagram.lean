import CloudProbe.Worker.OutputBase

/-!
# Sending datagrams

What the vxlan and the gre output share: the loop around `sendto` that retries while the kernel is
out of buffers, and the numbers they keep for the error log. Every call of `sendto` is logged with
its result. The loop sends its datagram in full at most once (`sendtoRetry_calls`).
-/

namespace CloudProbe.Worker

open List

abbrev Attempt := List UInt8 × SendtoResult

def Attempt.full (a : Attempt) : Bool :=
  match a.2 with
  | .sent n => a.1.length ≤ n
  | .nobufs => false
  | .error => false

/-- The datagrams that were sent in full, in order. -/
def fullySent (log : List Attempt) : List (List UInt8) := (log.filter Attempt.full).map Prod.fst

theorem fullySent_append (log log' : List Attempt) :
    fullySent (log ++ log') = fullySent log ++ fullySent log' := by
  simp [fullySent]

def maxRetries : ℕ := 10

/-- `sendto` until it gives another result than `ENOBUFS` or the retries are used up: the last
result and the log of all calls. Source: `do_send_packet`, `gre_send_packet` -/
def sendtoRetry (env : Env) (datagram : List UInt8) (retries : ℕ) (log : List Attempt) :
    SendtoResult × List Attempt :=
  let result := env.sendto log.length
  let log := log ++ [(datagram, result)]
  match result, retries with
  | .nobufs, retries + 1 => sendtoRetry env datagram retries log
  | result, _ => (result, log)

/-- The calls of the loop: it sends its datagram in full exactly when its last result says so, and
then once. -/
structure RetryCalls (env : Env) (datagram : List UInt8) (log : List Attempt)
    (r : SendtoResult × List Attempt) (calls : List Attempt) : Prop where
  logged : r.2 = log ++ calls
  full : fullySent calls = if Attempt.full (datagram, r.1) then [datagram] else []
  same : ∀ c ∈ calls, c.1 = datagram
  results : ∀ j c, calls[j]? = some c → c.2 = env.sendto (log.length + j)
  last : calls.getLast? = some (datagram, r.1)

theorem retryCalls_single (env : Env) (datagram : List UInt8) (log : List Attempt) :
    RetryCalls env datagram log
      (env.sendto log.length, log ++ [(datagram, env.sendto log.length)])
      [(datagram, env.sendto log.length)] where
  logged := rfl
  full := by simp [fullySent, filter_cons, apply_ite]
  same c hc := by rw [mem_singleton.mp hc]
  results j c hc := by
    rw [List.getElem?_singleton] at hc
    split_ifs at hc with hj
    cases hc
    rw [hj, Nat.add_zero]
  last := rfl

/-- What the calls of the retry loop are. -/
theorem sendtoRetry_calls (env : Env) (datagram : List UInt8) (retries : ℕ) (log : List Attempt) :
    ∃ calls, RetryCalls env datagram log (sendtoRetry env datagram retries log) calls := by
  have hsingle := retryCalls_single env datagram log
  induction retries generalizing log with
  | zero =>
    unfold sendtoRetry
    cases hr : env.sendto log.length <;> exact ⟨_, hr ▸ hsingle⟩
  | succ retries ih =>
    unfold sendtoRetry
    cases hr : env.sendto log.length with
    | nobufs =>
      obtain ⟨calls, h⟩ := ih (log ++ [(datagram, .nobufs)]) (retryCalls_single env datagram _)
      refine ⟨(datagram, .nobufs) :: calls, ?_, h.full, ?_, ?_, ?_⟩
      · rw [h.logged, append_assoc]
        rfl
      · exact forall_mem_cons.mpr ⟨rfl, h.same⟩
      · intro j c hc
        cases j with
        | zero =>
          cases hc
          exact hr.symm
        | succ j =>
          rw [h.results j c hc, length_append, length_singleton, Nat.add_right_comm]
          rfl
      · rw [List.getLast?_cons, h.last]
        rfl
    | sent n | error => exact ⟨_, hr ▸ hsingle⟩

/-- From the given call of `sendto` on, the datagram is taken in full before the retries are used
up. -/
def Taken (env : Env) (datagram : List UInt8) (retries call : ℕ) : Prop :=
  ∃ k ≤ retries, (∀ i < k, env.sendto (call + i) = .nobufs) ∧
    Attempt.full (datagram, env.sendto (call + k)) = true

section Taken

variable {env : Env} {datagram : List UInt8} {retries call : ℕ}

theorem taken_iff_full (h : retries = 0 ∨ env.sendto call ≠ .nobufs) :
    Taken env datagram retries call ↔ Attempt.full (datagram, env.sendto call) = true := by
  constructor
  · rintro ⟨_ | k, hk, hnobufs, hfull⟩
    · exact hfull
    · obtain rfl | hne := h
      · cases hk
      · exact absurd (hnobufs 0 (Nat.succ_pos k)) hne
  · exact fun hfull => ⟨0, Nat.zero_le _, fun i hi => absurd hi (Nat.not_lt_zero i), hfull⟩

theorem taken_succ (h : env.sendto call = .nobufs) :
    Taken env datagram (retries + 1) call ↔ Taken env datagram retries (call + 1) := by
  constructor
  · rintro ⟨_ | k, hk, hnobufs, hfull⟩
    · rw [Nat.add_zero, h] at hfull
      cases hfull
    · refine ⟨k, Nat.le_of_succ_le_succ hk, fun i hi => ?_, ?_⟩
      · rw [Nat.add_assoc, Nat.add_comm 1]
        exact hnobufs (i + 1) (Nat.succ_lt_succ hi)
      · rwa [Nat.add_assoc, Nat.add_comm 1]
  · rintro ⟨k, hk, hnobufs, hfull⟩
    refine ⟨k + 1, Nat.succ_le_succ hk, fun i hi => ?_, ?_⟩
    · cases i with
      | zero => exact h
      | succ i =>
        rw [Nat.add_comm i, ← Nat.add_assoc]
        exact hnobufs i (Nat.lt_of_succ_lt_succ hi)
    · rwa [Nat.add_comm k, ← Nat.add_assoc]

theorem full_sendtoRetry_iff {log : List Attempt} :
    Attempt.full (datagram, (sendtoRetry env datagram retries log).1) = true ↔
      Taken env datagram retries log.length := by
  induction retries generalizing log with
  | zero =>
    rw [taken_iff_full (.inl rfl)]
    unfold sendtoRetry
    cases env.sendto log.length <;> rfl
  | succ retries ih =>
    unfold sendtoRetry
    cases hr : env.sendto log.length with
    | nobufs => rw [taken_succ hr, ih, length_append, length_singleton]
    | sent n | error => rw [taken_iff_full (.inr (by simp [hr])), hr]

end Taken

/-- `error_info`, without the text of the first other error.
Source: `output_vxlan.h`, `output_gre.h` -/
structure SendErrorInfo where
  firstPktsec : ℤ
  nbNobufsDrops : UInt64
  nbPartialSends : UInt64
  nbOtherSendErrorDrops : UInt64
deriving DecidableEq

/-- The error log is written when it is more than `ERROR_INFO_FLUSH_MAX_DUR_SEC` old; its numbers
start again at zero. Source: `vxlan_send_packet`, `gre_send_packet`, `flush_error_info` -/
def SendErrorInfo.check (info : SendErrorInfo) (pktsec : ℤ) : SendErrorInfo :=
  if info.firstPktsec = 0 then { info with firstPktsec := pktsec }
  else if info.firstPktsec + 5 < pktsec then ⟨pktsec, 0, 0, 0⟩
  else info

/-- The failed send of a datagram of length `len`. Source: `do_send_packet`, `gre_send_packet` -/
def SendErrorInfo.record (info : SendErrorInfo) (len : ℕ) : SendtoResult → SendErrorInfo
  | .nobufs => { info with nbNobufsDrops := info.nbNobufsDrops + 1 }
  | .error => { info with nbOtherSendErrorDrops := info.nbOtherSendErrorDrops + 1 }
  | .sent n =>
    if n < len then { info with nbPartialSends := info.nbPartialSends + 1 } else info

end CloudProbe.Worker
