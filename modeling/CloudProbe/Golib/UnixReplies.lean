import CloudProbe.Golib.UnixClient
import CloudProbe.Lib.Runs

/-!
# Replies and commands of the command socket

A call gets the reply to its own command as long as nobody else has a request on the connection.
This is what the mutex does not give: it is released before the command is written.

* **What a step does** (`Step`): the transitions, with the state they lead to.
* **Locking** (`Locking`), in every run: who holds the mutex, and that nobody else knows a
  connection on which the handshake is made.
* **Traffic** (`Traffic`), in every run whose commands are sent alone: a connection without an
  outstanding request is empty, and one with a reader has that reader's exchange on it.
-/

namespace CloudProbe.Golib

open Lib Option

/-! ## What a step does -/

inductive Step (P : Program) (s : Client) : Action → Client → Prop
  | lock (i : ℕ) (p : Pc) (hmu : s.mu = none) (hp : P.afterLock i (s.pc i) = some p) :
      Step P s (.lock i) ({ s with mu := some i }.setPc i p)
  | useConn (i c : ℕ) (hpc : s.pc i = .locked) (hconn : s.conn = some c) :
      Step P s (.useConn i) ({ s with mu := none }.setPc i (P.afterConn i c))
  | dial (i : ℕ) (hpc : s.pc i = .locked) (hconn : s.conn = none) :
      Step P s (.dialContext i true) (({ s with nextConn := s.nextConn + 1 }.setConn s.nextConn
        ⟨true, true, .empty, []⟩).setPc i (.haveConn true s.nextConn))
  | dialFails (i : ℕ) (hpc : s.pc i = .locked) :
      Step P s (.dialContext i false) ({ s with mu := none }.setPc i (.returned .error))
  | marshalFails (i c : ℕ) (hpc : s.pc i = .haveConn false c) :
      Step P s (.marshalFails i) (s.setPc i (.returned .error))
  | send (i n : ℕ) (handshake : Bool) (c : ℕ) (line : Line) (hpc : s.pc i = .haveConn handshake c)
      (hline : P.line ⟨i, handshake⟩ = some line) (hn : n ≤ line.data.length)
      (hopen : 0 < n → (s.conns c).isOpen = true) :
      Step P s (.send i n) ((s.setConn c ((s.conns c).write ⟨i, handshake⟩ line n)).setPc i
        (if n = line.data.length then .receiving handshake c [] else .failed handshake c))
  | recvLine (i k : ℕ) (handshake : Bool) (c : ℕ) (buf : List (Marked UInt8 Owner))
      (hpc : s.pc i = .receiving handshake c buf)
      (hline : newline ∈ syms (buf ++ (s.conns c).channel.toClient.take k)) :
      Step P s (.recv i k) (P.received (s.setConn c ((s.conns c).readLine ⟨i, handshake⟩ k)) i
        handshake c (firstLine newline (syms (buf ++ (s.conns c).channel.toClient.take k))))
  | recvMore (i k : ℕ) (handshake : Bool) (c : ℕ) (buf : List (Marked UInt8 Owner))
      (hpc : s.pc i = .receiving handshake c buf)
      (hline : newline ∉ syms (buf ++ (s.conns c).channel.toClient.take k)) :
      Step P s (.recv i k) ((s.setConn c { s.conns c with
          channel := (s.conns c).channel.read k }).setPc i
        (.receiving handshake c (buf ++ (s.conns c).channel.toClient.take k)))
  | recvFails (i : ℕ) (handshake : Bool) (c : ℕ) (buf : List (Marked UInt8 Owner))
      (hpc : s.pc i = .receiving handshake c buf) :
      Step P s (.recvFails i) (s.setPc i (.failed handshake c))
  | closeDialed (i c : ℕ) (hpc : s.pc i = .failed true c) :
      Step P s (.closeDialed i) (({ s with mu := none }.closeConn c).setPc i (.returned .error))
  | closeConn (i c : ℕ) (hpc : s.pc i = .closing) (hconn : s.conn = some c) :
      Step P s (.close i) (({ s with mu := none, conn := none }.closeConn c).setPc i
        (.returned (P.afterClose i)))
  | closeNone (i : ℕ) (hpc : s.pc i = .closing) (hconn : s.conn = none) :
      Step P s (.close i) ({ s with mu := none }.setPc i (.returned (P.afterClose i)))
  | serverRead (c k : ℕ) :
      Step P s (.serverRead c k) (s.setConn c { s.conns c with
        channel := (s.conns c).channel.serverRead k })
  | serverAnswer (c : ℕ) (reply : Line) (owner : Owner) (request : List UInt8)
      (hrequest : (s.conns c).channel.request newline = some (owner, request)) :
      Step P s (.serverAnswer c reply) { s.setConn c { s.conns c with
          channel := (s.conns c).channel.answer newline owner reply.text } with
        answers := s.answers ++ [⟨c, owner, request, reply.text⟩] }
  | serverClose (c : ℕ) :
      Step P s (.serverClose c) (s.setConn c { s.conns c with served := false })

variable {P : Program} {s : Client}

/-- What an enabled step does, with the conditions it was enabled under. -/
theorem Step.of_step {s' : Client} {a : Action} (h : P.step s a = some s') :
    Step P s a s' := by
  cases a <;> simp only [Program.step] at h
  case lock i =>
    simp only [ite_none_right_eq_some, map_eq_some_iff] at h
    obtain ⟨hmu, p, hp, rfl⟩ := h
    exact .lock i p hmu hp
  case useConn i =>
    split at h <;> cases h
    next c hpc hconn => exact .useConn i c hpc hconn
  case dialContext i ok =>
    split at h
    · next hpc hconn =>
      cases ok <;> cases h
      · exact .dialFails i hpc
      · exact .dial i hpc hconn
    · cases h
  case marshalFails i =>
    split at h <;> cases h
    next c hpc hline => exact .marshalFails i c hpc
  case send i n =>
    split at h
    · next handshake c hpc =>
      split at h
      · next line hline =>
        obtain ⟨⟨hn, hopen⟩, heq⟩ := ite_none_right_eq_some.mp h
        obtain rfl := some.inj heq
        exact .send i n handshake c line hpc hline hn fun hpos => (hopen hpos).1
      · cases h
    · cases h
  case recv i k =>
    split at h
    · next handshake c buf hpc =>
      obtain ⟨-, heq⟩ := ite_none_right_eq_some.mp h
      split_ifs at heq with hline <;> cases heq
      · exact .recvLine i k handshake c buf hpc hline
      · exact .recvMore i k handshake c buf hpc hline
    · cases h
  case recvFails i =>
    split at h <;> cases h
    next handshake c buf hpc => exact .recvFails i handshake c buf hpc
  case closeDialed i =>
    split at h <;> cases h
    next c hpc => exact .closeDialed i c hpc
  case close i =>
    split at h <;> cases h
    · next c hpc hconn => exact .closeConn i c hpc hconn
    · next hpc hconn => exact .closeNone i hpc hconn
  case serverRead c k =>
    obtain rfl := some.inj (ite_none_right_eq_some.mp h).2
    exact .serverRead c k
  case serverAnswer c reply =>
    split at h
    · next owner request hrequest =>
      obtain rfl := some.inj (ite_none_right_eq_some.mp h).2
      exact .serverAnswer c reply owner request hrequest
    · cases h
  case serverClose c =>
    obtain rfl := some.inj (ite_none_right_eq_some.mp h).2
    exact .serverClose c

section Places

variable (P : Program)

theorem Program.afterLock_cases {i : ℕ} {q p : Pc} (h : P.afterLock i q = some p) :
    p = .locked ∨ p = .closing := by
  unfold Program.afterLock at h
  split at h
  · split at h
    · exact .inr (some.inj h).symm
    · exact .inl (some.inj h).symm
  · exact .inr (some.inj h).symm
  · cases h

theorem Program.afterConn_cases (i c : ℕ) :
    P.afterConn i c = .haveConn false c ∨ P.afterConn i c = .returned .done := by
  unfold Program.afterConn
  split
  · exact .inl rfl
  · exact .inr rfl

theorem Program.afterClose_cases (i : ℕ) : P.afterClose i = .error ∨ P.afterClose i = .done := by
  unfold Program.afterClose
  split
  · exact .inl rfl
  · exact .inr rfl

theorem Program.received_cases (s : Client) (i : ℕ) (handshake : Bool) (c : ℕ)
    (data : List UInt8) :
    (handshake = true ∧ P.received s i handshake c data =
        { s with conn := some c, mu := none }.setPc i (P.afterConn i c)) ∨
      P.received s i handshake c data = s.setPc i (.failed handshake c) ∨
      (handshake = false ∧
        (P.received s i handshake c data = s.setPc i (.returned (.reply data)) ∨
          P.received s i handshake c data = s.setPc i (.returned .error))) := by
  unfold Program.received
  cases handshake <;> cases P.decode data <;> simp

end Places

@[simp] theorem Client.setPc_self (s : Client) (i : ℕ) (p : Pc) : (s.setPc i p).pc i = p :=
  Function.update_self _ _ _

@[simp] theorem Client.setConn_self (s : Client) (c : ℕ) (x : Conn) :
    (s.setConn c x).conns c = x := Function.update_self _ _ _

theorem Client.setConn_of_ne (s : Client) {c d : ℕ} (x : Conn) (h : d ≠ c) :
    (s.setConn c x).conns d = s.conns d := Function.update_of_ne h _ _

theorem Client.setConn_congr {β : Type*} (f : Conn → β) (s : Client) {c : ℕ} {x : Conn}
    (h : f x = f (s.conns c)) (d : ℕ) : f ((s.setConn c x).conns d) = f (s.conns d) := by
  by_cases hd : d = c
  · rw [hd, s.setConn_self, h]
  · rw [s.setConn_of_ne x hd]

/-- What holds of the changed entry and of the others holds of all. -/
theorem forall_of_update {β : Type*} {f g : ℕ → β} {i : ℕ} {b : β} {Q : ℕ → β → Prop}
    (hg : g = Function.update f i b) (hi : Q i b) (hf : ∀ j, j ≠ i → Q j (f j)) :
    ∀ j, Q j (g j) := by
  rw [hg]
  exact (Function.forall_update_iff f Q).mpr ⟨hi, hf⟩

/-! ## Locking -/

namespace Pc

def conn : Pc → Option ℕ
  | .haveConn _ c => some c
  | .receiving _ c _ => some c
  | .failed _ c => some c
  | _ => none

def dialing : Pc → Option ℕ
  | .haveConn true c => some c
  | .receiving true c _ => some c
  | .failed true c => some c
  | _ => none

def holdsMu : Pc → Bool
  | .locked => true
  | .closing => true
  | p => p.dialing.isSome

theorem holdsMu_of_dialing {p : Pc} {c : ℕ} (h : p.dialing = some c) : p.holdsMu = true := by
  unfold holdsMu
  split
  · rfl
  · rfl
  · rw [h]
    rfl

end Pc

structure Locking (s : Client) : Prop where
  holder : ∀ i, (s.pc i).holdsMu = true → s.mu = some i
  current : ∀ c, s.conn = some c → c < s.nextConn
  known : ∀ i c, (s.pc i).conn = some c → c < s.nextConn
  unused : ∀ c, s.nextConn ≤ c → (s.conns c).pending = []
  unpublished : ∀ i c, (s.pc i).dialing = some c → ∀ j, s.pc j ≠ .haveConn false c

namespace Locking

variable {P : Program} {s s' : Client} {i : ℕ} {p : Pc}

/-- A step that changes one call keeps the mutex with its holder. -/
theorem move (h : Locking s) (hpc : s'.pc = Function.update s.pc i p)
    (hholder : p.holdsMu = true → s'.mu = some i)
    (hothers : s'.mu = s.mu ∨ s.mu = none ∨ s.mu = some i)
    (hcurrent : ∀ c, s'.conn = some c → c < s'.nextConn)
    (hknown : ∀ c, p.conn = some c → c < s'.nextConn) (hnext : s.nextConn ≤ s'.nextConn)
    (hunused : ∀ c, s'.nextConn ≤ c → (s'.conns c).pending = [])
    (hdialing : ∀ c, p.dialing = some c → ∀ j, j ≠ i → s.pc j ≠ .haveConn false c)
    (hpublish : ∀ c, p = .haveConn false c → s.mu = some i) : Locking s' := by
  have hself : s'.pc i = p := by rw [hpc, Function.update_self]
  have hother : ∀ j, j ≠ i → s'.pc j = s.pc j :=
    fun j hj => by rw [hpc, Function.update_of_ne hj]
  refine ⟨?_, hcurrent, ?_, hunused, fun j c hj k hk => ?_⟩
  · refine forall_of_update (Q := fun j q => q.holdsMu = true → s'.mu = some j) hpc hholder ?_
    intro j hji hj
    have hmu := h.holder j hj
    rcases hothers with heq | hnone | hself
    · rw [heq, hmu]
    · rw [hnone] at hmu
      cases hmu
    · rw [hself] at hmu
      exact absurd (some.inj hmu).symm hji
  · exact forall_of_update (Q := fun _ q => ∀ c, q.conn = some c → c < s'.nextConn) hpc hknown
      fun j _ c hj => Nat.lt_of_lt_of_le (h.known j c hj) hnext
  · by_cases hki : k = i
    · subst hki
      rw [hself] at hk
      by_cases hjk : j = k
      · rw [hjk, hself, hk] at hj
        cases hj
      · -- whoever shakes hands holds the mutex, but `k` publishes under it
        rw [hother j hjk] at hj
        have hmu := h.holder j (Pc.holdsMu_of_dialing hj)
        rw [hpublish c hk] at hmu
        exact absurd (some.inj hmu).symm hjk
    · rw [hother k hki] at hk
      by_cases hji : j = i
      · subst hji
        rw [hself] at hj
        exact hdialing c hj k hki hk
      · rw [hother j hji] at hj
        exact h.unpublished j c hj k hk

theorem leave (h : Locking s) {r : Result} (hpc : s'.pc = Function.update s.pc i (.returned r))
    (hothers : s'.mu = s.mu ∨ s.mu = some i) (hcurrent : ∀ c, s'.conn = some c → c < s.nextConn)
    (hnext : s'.nextConn = s.nextConn)
    (hpending : ∀ c, s.nextConn ≤ c → (s'.conns c).pending = []) : Locking s' := by
  refine h.move hpc ?_ (hothers.imp_right .inr) (hnext ▸ hcurrent) ?_ (Nat.le_of_eq hnext.symm)
    (hnext ▸ hpending) ?_ ?_
  · rintro ⟨⟩
  all_goals rintro c ⟨⟩

/-- A step that changes nothing of the mutex keeps it with its holder. -/
theorem stay (h : Locking s) (hpc : s'.pc = Function.update s.pc i p)
    (hconn : p.conn = (s.pc i).conn) (hdialing : p.dialing = (s.pc i).dialing)
    (hholds : p.holdsMu = (s.pc i).holdsMu) (hnot : ∀ c, p ≠ .haveConn false c)
    (hmu : s'.mu = s.mu) (hcurrent : s'.conn = s.conn) (hnext : s'.nextConn = s.nextConn)
    (hpending : ∀ c, s.nextConn ≤ c → (s'.conns c).pending = []) : Locking s' := by
  refine h.move hpc ?_ (.inl hmu) ?_ ?_ (Nat.le_of_eq hnext.symm) (hnext ▸ hpending) ?_ ?_
  · intro hp
    rw [hmu]
    exact h.holder i (hholds ▸ hp)
  · rw [hcurrent, hnext]
    exact h.current
  · rw [hconn, hnext]
    exact h.known i
  · intro c hc j _
    exact h.unpublished i c (hdialing ▸ hc) j
  · exact fun c hc => absurd hc (hnot c)

theorem frame (h : Locking s) (hpc : s'.pc = s.pc) (hmu : s'.mu = s.mu) (hconn : s'.conn = s.conn)
    (hnext : s'.nextConn = s.nextConn)
    (hpending : ∀ c, (s'.conns c).pending = (s.conns c).pending) : Locking s' := by
  refine ⟨?_, ?_, ?_, ?_, ?_⟩
  · rw [hpc, hmu]
    exact h.holder
  · rw [hconn, hnext]
    exact h.current
  · rw [hpc, hnext]
    exact h.known
  · intro c hc
    rw [hpending]
    exact h.unused c (hnext ▸ hc)
  · rw [hpc]
    exact h.unpublished

theorem unused_setConn (h : Locking s) {c : ℕ} (hc : c < s.nextConn) (x : Conn) (d : ℕ)
    (hd : s.nextConn ≤ d) : ((s.setConn c x).conns d).pending = [] := by
  rw [s.setConn_of_ne x (Nat.ne_of_gt (Nat.lt_of_lt_of_le hc hd))]
  exact h.unused d hd

/-- The end of an exchange keeps the mutex with its holder. -/
theorem received (h : Locking s) {handshake : Bool} {c : ℕ} {buf : List (Marked UInt8 Owner)}
    (hpc : s.pc i = .receiving handshake c buf) (x : Conn) (data : List UInt8) :
    Locking (P.received (s.setConn c x) i handshake c data) := by
  have hknown := h.known i c (by rw [hpc]; rfl)
  have hunused := h.unused_setConn hknown x
  rcases P.received_cases (s.setConn c x) i handshake c data with
    ⟨rfl, heq⟩ | heq | ⟨rfl, heq | heq⟩
  · have hmu : s.mu = some i := h.holder i (by rw [hpc]; rfl)
    have hcurrent : ∀ d, some c = some d → d < s.nextConn := by
      rintro d ⟨⟩
      exact hknown
    rw [heq]
    rcases P.afterConn_cases i c with hafter | hafter
    · rw [hafter]
      refine h.move rfl ?_ (.inr (.inr hmu)) hcurrent hcurrent (Nat.le_refl _) hunused ?_
        (fun _ _ => hmu)
      · rintro ⟨⟩
      · rintro d ⟨⟩
    · rw [hafter]
      exact h.leave rfl (.inr hmu) hcurrent rfl hunused
  · rw [heq]
    refine h.stay rfl ?_ ?_ ?_ (by simp) rfl rfl rfl hunused
    all_goals
      rw [hpc]
      cases handshake <;> simp [Pc.conn, Pc.dialing, Pc.holdsMu]
  all_goals
    rw [heq]
    exact h.leave rfl (.inl rfl) h.current rfl hunused

/-- **The step lemma** for the mutex and the numbers of connections. -/
theorem step (h : Locking s) {a : Action} (hstep : Step P s a s') : Locking s' := by
  cases hstep with
  | lock i p hmu hp =>
    refine h.move rfl (fun _ => rfl) (.inr (.inl hmu)) h.current ?_ (Nat.le_refl _) h.unused ?_ ?_
    all_goals
      intro c hc
      rcases P.afterLock_cases hp with rfl | rfl <;> cases hc
  | useConn i c hpc hconn =>
    have hmu : s.mu = some i := h.holder i (by rw [hpc]; rfl)
    rcases P.afterConn_cases i c with heq | heq
    · rw [heq]
      refine h.move rfl ?_ (.inr (.inr hmu)) h.current ?_ (Nat.le_refl _) h.unused ?_
        (fun _ _ => hmu)
      · rintro ⟨⟩
      · rintro d ⟨⟩
        exact h.current c hconn
      · rintro d ⟨⟩
    · rw [heq]
      exact h.leave rfl (.inr hmu) h.current rfl h.unused
  | dial i hpc hconn =>
    have hmu : s.mu = some i := h.holder i (by rw [hpc]; rfl)
    refine h.move rfl (fun _ => hmu) (.inl rfl) ?_ ?_ (Nat.le_succ _) ?_ ?_ ?_
    · intro c hc
      exact Nat.lt_succ_of_lt (h.current c hc)
    · rintro c ⟨⟩
      exact Nat.lt_succ_self _
    · intro c hc
      exact (s.setConn_congr Conn.pending (h.unused s.nextConn (Nat.le_refl _)).symm c).trans
        (h.unused c (Nat.le_of_succ_le hc))
    · rintro c ⟨⟩ j - hj
      exact absurd (h.known j s.nextConn (by rw [hj]; rfl)) (Nat.lt_irrefl _)
    · rintro c ⟨⟩
  | dialFails i hpc | closeNone i hpc hconn =>
    exact h.leave rfl (.inr (h.holder i (by rw [hpc]; rfl))) h.current rfl h.unused
  | marshalFails i c hpc =>
    exact h.leave rfl (.inl rfl) h.current rfl h.unused
  | send i n handshake c line hpc hline hn hopen =>
    have hknown := h.known i c (by rw [hpc]; rfl)
    refine h.stay rfl ?_ ?_ ?_ (by split_ifs <;> simp) rfl rfl rfl (h.unused_setConn hknown _)
    all_goals
      rw [hpc]
      split_ifs <;> cases handshake <;> simp [Pc.conn, Pc.dialing, Pc.holdsMu]
  | recvLine i k handshake c buf hpc hline => exact h.received hpc _ _
  | recvMore i k handshake c buf hpc hline =>
    refine h.stay rfl ?_ ?_ ?_ (by simp) rfl rfl rfl
      (h.unused_setConn (h.known i c (by rw [hpc]; rfl)) _)
    all_goals
      rw [hpc]
      cases handshake <;> simp [Pc.conn, Pc.dialing, Pc.holdsMu]
  | recvFails i handshake c buf hpc =>
    refine h.stay rfl ?_ ?_ ?_ (by simp) rfl rfl rfl h.unused
    all_goals
      rw [hpc]
      cases handshake <;> simp [Pc.conn, Pc.dialing, Pc.holdsMu]
  | closeDialed i c hpc =>
    exact h.leave rfl (.inr (h.holder i (by rw [hpc]; rfl))) h.current rfl
      (h.unused_setConn (h.known i c (by rw [hpc]; rfl)) _)
  | closeConn i c hpc hconn =>
    refine h.leave rfl (.inr (h.holder i (by rw [hpc]; rfl))) ?_ rfl
      (h.unused_setConn (h.current c hconn) _)
    rintro d ⟨⟩
  | serverRead c k | serverAnswer c reply owner request hrequest | serverClose c =>
    exact h.frame rfl rfl rfl rfl (s.setConn_congr Conn.pending rfl)

end Locking

/-! ## Traffic -/

/-- The exchange `o` is the one on connection `c`, in state `x`, and its call has read `buf`. -/
def Awaiting (P : Program) (answers : List Answer) (c : ℕ) (x : Conn) (o : Owner)
    (buf : List (Marked UInt8 Owner)) : Prop :=
  x.pending = [o] ∧ ∃ line, P.line o = some line ∧
    Channel.Awaits newline o line.text (fun reply => ⟨c, o, line.text, reply⟩ ∈ answers)
      x.channel buf

structure Traffic (P : Program) (s : Client) : Prop where
  one : s.OneOutstanding
  quiet : ∀ c, (s.conns c).pending = [] → (s.conns c).channel = .empty
  dialed : ∀ i c, s.pc i = .haveConn true c → (s.conns c).pending = []
  awaits : ∀ i handshake c buf, s.pc i = .receiving handshake c buf →
    Awaiting P s.answers c (s.conns c) ⟨i, handshake⟩ buf
  replied : s.Matched P

/-- A place at which a call reads nothing and has no reply; a new connection is still unused. -/
def Idle (s : Client) : Pc → Prop
  | .haveConn true c => (s.conns c).pending = []
  | .receiving _ _ _ => False
  | .returned (.reply _) => False
  | _ => True

namespace Traffic

variable {P : Program} {s s' : Client}

/-- A step after which no call reads something new keeps the traffic. -/
theorem move (h : Traffic P s) (hchannel : ∀ c, (s'.conns c).channel = (s.conns c).channel)
    (hpending : ∀ c, (s'.conns c).pending = (s.conns c).pending)
    (hanswers : s'.answers = s.answers)
    (hpc : ∀ j, s'.pc j = s.pc j ∨ Idle s (s'.pc j)) : Traffic P s' := by
  refine ⟨fun c => ?_, fun c hc => ?_, fun j c hj => ?_, fun j handshake c buf hj => ?_,
    fun j data hj => ?_⟩
  · rw [hpending]
    exact h.one c
  · rw [hchannel]
    exact h.quiet c (hpending c ▸ hc)
  · rw [hpending]
    rcases hpc j with hsame | hidle
    · exact h.dialed j c (hsame ▸ hj)
    · rw [hj] at hidle
      exact hidle
  · rcases hpc j with hsame | hidle
    · rw [Awaiting, hanswers, hchannel, hpending]
      exact h.awaits j handshake c buf (hsame ▸ hj)
    · rw [hj] at hidle
      exact hidle.elim
  · rcases hpc j with hsame | hidle
    · rw [hanswers]
      exact h.replied j data (hsame ▸ hj)
    · rw [hj] at hidle
      exact hidle.elim

variable {i c : ℕ} {handshake : Bool}

/-- A step that changes one call and one connection keeps the traffic. -/
theorem change (h : Traffic P s) {p : Pc} {x : Conn} (hpc : s'.pc = Function.update s.pc i p)
    (hconns : s'.conns = Function.update s.conns c x) (hanswers : s'.answers = s.answers)
    (hone : x.pending.length ≤ 1) (hquiet : x.pending = [] → x.channel = .empty)
    (hreaders : ∀ j, j ≠ i → ∀ handshake buf, s.pc j ≠ .receiving handshake c buf)
    (hdialers : ∀ j, j ≠ i → s.pc j ≠ .haveConn true c) (hp : ∀ d, p ≠ .haveConn true d)
    (hreceiving : ∀ handshake d buf, p = .receiving handshake d buf →
      d = c ∧ Awaiting P s.answers c x ⟨i, handshake⟩ buf)
    (hreply : ∀ data, p = .returned (.reply data) → Replied P s.answers i data) :
    Traffic P s' := by
  have hx : s'.conns c = x := by rw [hconns, Function.update_self]
  have hconn : ∀ d, d ≠ c → s'.conns d = s.conns d :=
    fun d hd => by rw [hconns, Function.update_of_ne hd]
  refine ⟨?_, ?_, ?_, ?_, ?_⟩
  · exact forall_of_update (Q := fun _ y => y.pending.length ≤ 1) hconns hone fun d _ => h.one d
  · exact forall_of_update (Q := fun _ y => y.pending = [] → y.channel = .empty) hconns hquiet
      fun d _ => h.quiet d
  · refine forall_of_update (Q := fun _ q => ∀ d, q = .haveConn true d → (s'.conns d).pending = [])
      hpc (fun d hd => absurd hd (hp d)) fun j hji d hj => ?_
    rw [hconn d fun heq => hdialers j hji (heq ▸ hj)]
    exact h.dialed j d hj
  · rw [hanswers]
    refine forall_of_update (Q := fun j q => ∀ handshake d buf, q = .receiving handshake d buf →
      Awaiting P s.answers d (s'.conns d) ⟨j, handshake⟩ buf) hpc ?_ ?_
    · intro handshake d buf hd
      obtain ⟨rfl, hawaiting⟩ := hreceiving handshake d buf hd
      rw [hx]
      exact hawaiting
    · intro j hji handshake d buf hj
      rw [hconn d fun heq => hreaders j hji handshake buf (heq ▸ hj)]
      exact h.awaits j handshake d buf hj
  · rw [Client.Matched, hanswers]
    exact forall_of_update (Q := fun j q => ∀ data, q = .returned (.reply data) →
      Replied P s.answers j data) hpc hreply fun j _ => h.replied j

/-- A step of the server keeps the traffic. -/
theorem serve (h : Traffic P s) {c : ℕ} {ch : Channel UInt8 Owner}
    (hpc : s'.pc = s.pc)
    (hconns : s'.conns = Function.update s.conns c { s.conns c with channel := ch })
    (hanswers : ∀ a ∈ s.answers, a ∈ s'.answers)
    (hquiet : (s.conns c).pending = [] → ch = .empty)
    (hawaits : ∀ o line buf, P.line o = some line →
      Channel.Awaits newline o line.text (fun reply => ⟨c, o, line.text, reply⟩ ∈ s.answers)
        (s.conns c).channel buf →
      Channel.Awaits newline o line.text (fun reply => ⟨c, o, line.text, reply⟩ ∈ s'.answers)
        ch buf) : Traffic P s' := by
  have hx : s'.conns c = { s.conns c with channel := ch } := by rw [hconns, Function.update_self]
  have hconn : ∀ d, d ≠ c → s'.conns d = s.conns d :=
    fun d hd => by rw [hconns, Function.update_of_ne hd]
  have hpending : ∀ d, (s'.conns d).pending = (s.conns d).pending :=
    forall_of_update (Q := fun d y => y.pending = (s.conns d).pending) hconns rfl fun _ _ => rfl
  refine ⟨fun d => ?_, ?_, fun j d hj => ?_, fun j handshake d buf hj => ?_, fun j data hj => ?_⟩
  · rw [hpending]
    exact h.one d
  · exact forall_of_update (Q := fun _ y => y.pending = [] → y.channel = .empty) hconns hquiet
      fun d _ => h.quiet d
  · rw [hpending]
    exact h.dialed j d (hpc ▸ hj)
  · obtain ⟨howner, line, hline, hexchange⟩ := h.awaits j handshake d buf (hpc ▸ hj)
    refine ⟨(hpending d).trans howner, line, hline, ?_⟩
    by_cases hdc : d = c
    · subst hdc
      rw [hx]
      exact hawaits _ line buf hline hexchange
    · rw [hconn d hdc]
      exact hexchange.mono fun reply hreply => hanswers _ hreply
  · obtain ⟨line, a, hline, ha, hrest⟩ := h.replied j data (hpc ▸ hj)
    exact ⟨line, a, hline, hanswers a ha, hrest⟩

theorem idle_update {p : Pc} (hpc : s'.pc = Function.update s.pc i p) (hp : Idle s p) (j : ℕ) :
    s'.pc j = s.pc j ∨ Idle s (s'.pc j) :=
  forall_of_update (Q := fun j q => q = s.pc j ∨ Idle s q) hpc (.inr hp) (fun _ _ => .inl rfl) j

theorem not_receiving (h : Traffic P s) (hpending : (s.conns c).pending = []) (j : ℕ)
    (handshake : Bool) (buf : List (Marked UInt8 Owner)) :
    s.pc j ≠ .receiving handshake c buf := by
  intro hj
  have howner := (h.awaits j handshake c buf hj).1
  rw [hpending] at howner
  cases howner

/-- A command that is sent alone awaits its reply. -/
theorem send (h : Traffic P s) (hlock : Locking s) {n : ℕ} {line : Line}
    (hpc : s.pc i = .haveConn handshake c) (hline : P.line ⟨i, handshake⟩ = some line)
    (hpending : (s.conns c).pending = []) (hn : n ≠ 0) :
    Traffic P ((s.setConn c ((s.conns c).write ⟨i, handshake⟩ line n)).setPc i
      (if n = line.data.length then .receiving handshake c [] else .failed handshake c)) := by
  have hwrite : (s.conns c).write ⟨i, handshake⟩ line n = { s.conns c with
      channel := Channel.empty.write ⟨i, handshake⟩ (line.data.take n)
      pending := [⟨i, handshake⟩] } := by
    rw [Conn.write, if_neg hn, h.quiet c hpending, hpending, List.nil_append]
  rw [hwrite]
  refine h.change rfl rfl rfl (Nat.le_refl _) ?_ ?_ ?_ ?_ ?_ ?_
  · rintro ⟨⟩
  · exact fun j _ handshake' buf => h.not_receiving hpending j handshake' buf
  · intro j hj hdialed
    cases handshake with
    | false => exact hlock.unpublished j c (by rw [hdialed]; rfl) i hpc
    | true =>
      -- both would hold the mutex
      have hi := hlock.holder i (by rw [hpc]; rfl)
      rw [hlock.holder j (by rw [hdialed]; rfl)] at hi
      exact hj (some.inj hi)
  · intro d
    split_ifs <;> simp
  · intro handshake' d buf hp
    split_ifs at hp with hall
    cases hp
    refine ⟨rfl, rfl, line, hline, ?_⟩
    rw [hall, List.take_length]
    exact Channel.awaits_write
  · intro data hp
    split_ifs at hp

theorem other_of_receiving (h : Traffic P s) {buf : List (Marked UInt8 Owner)}
    (hpc : s.pc i = .receiving handshake c buf) (j : ℕ) (hj : j ≠ i) :
    (∀ handshake' buf', s.pc j ≠ .receiving handshake' c buf') ∧
      s.pc j ≠ .haveConn true c := by
  have howner := (h.awaits i handshake c buf hpc).1
  constructor
  · intro handshake' buf' hreads
    have hother := (h.awaits j handshake' c buf' hreads).1
    rw [howner] at hother
    exact hj (congrArg Owner.call (List.cons.inj hother).1).symm
  · intro hdialed
    have hnone := h.dialed j c hdialed
    rw [howner] at hnone
    cases hnone

/-- A read that completes a line returns the reply to the request of its call. -/
theorem recvLine (h : Traffic P s) {k : ℕ} {buf : List (Marked UInt8 Owner)}
    (hpc : s.pc i = .receiving handshake c buf)
    (hline : newline ∈ syms (buf ++ (s.conns c).channel.toClient.take k)) :
    Traffic P (P.received (s.setConn c ((s.conns c).readLine ⟨i, handshake⟩ k)) i handshake c
      (firstLine newline (syms (buf ++ (s.conns c).channel.toClient.take k)))) := by
  obtain ⟨howner, line, hcommand, hexchange⟩ := h.awaits i handshake c buf hpc
  obtain ⟨reply, hanswer, hreply, hdata, hempty⟩ := hexchange.line k hline
  have hread : (s.conns c).readLine ⟨i, handshake⟩ k =
      { s.conns c with channel := .empty, pending := [] } := by
    rw [Conn.readLine, hempty, howner, List.erase_cons_head]
  rw [hdata, firstLine_line hreply, hread]
  set s₁ := s.setConn c { s.conns c with channel := .empty, pending := [] }
  -- whatever the line says, the call goes on without reading
  have hmoves : ∀ s' p, s'.pc = Function.update s.pc i p → s'.conns = s₁.conns →
      s'.answers = s.answers → (∀ d, p ≠ .haveConn true d) →
      (∀ handshake d buf, p ≠ .receiving handshake d buf) →
      (∀ data, p = .returned (.reply data) → Replied P s.answers i data) → Traffic P s' := by
    intro s' p hpc' hconns hanswers hhave hreads hreplied
    exact h.change hpc' hconns hanswers (Nat.zero_le _) (fun _ => rfl)
      (fun j hj => (h.other_of_receiving hpc j hj).1)
      (fun j hj => (h.other_of_receiving hpc j hj).2) hhave
      (fun handshake d buf hp => absurd hp (hreads handshake d buf)) hreplied
  rcases P.received_cases s₁ i handshake c (reply ++ [newline]) with
    ⟨-, heq⟩ | heq | ⟨rfl, heq | heq⟩
  · rw [heq]
    rcases P.afterConn_cases i c with hafter | hafter
    all_goals exact hmoves _ _ rfl rfl rfl (by simp [hafter]) (by simp [hafter]) (by simp [hafter])
  · rw [heq]
    exact hmoves _ _ rfl rfl rfl (by simp) (by simp) (by simp)
  · rw [heq]
    refine hmoves _ _ rfl rfl rfl (by simp) (by simp) ?_
    rintro data ⟨⟩
    exact ⟨line, _, hcommand, hanswer, rfl, rfl, rfl⟩
  · rw [heq]
    exact hmoves _ _ rfl rfl rfl (by simp) (by simp) (by simp)

/-- **The step lemma** for what is on the connections, as long as commands are sent alone. -/
theorem step (h : Traffic P s) (hlock : Locking s) {a : Action} (hstep : Step P s a s')
    (halone : s.sendsAlone a = true) : Traffic P s' := by
  have hkeep : ∀ {s' : Client} {i : ℕ} {p : Pc}, s'.pc = Function.update s.pc i p → Idle s p →
      (∀ c, (s'.conns c).channel = (s.conns c).channel) →
      (∀ c, (s'.conns c).pending = (s.conns c).pending) → s'.answers = s.answers →
      Traffic P s' := by
    intro s' i p hpc hp hchannel hpending hanswers
    exact h.move hchannel hpending hanswers (idle_update hpc hp)
  cases hstep with
  | lock i p hmu hp =>
    refine hkeep rfl ?_ (fun _ => rfl) (fun _ => rfl) rfl
    rcases P.afterLock_cases hp with rfl | rfl <;> trivial
  | useConn i c hpc hconn =>
    refine hkeep rfl ?_ (fun _ => rfl) (fun _ => rfl) rfl
    rcases P.afterConn_cases i c with heq | heq <;> rw [heq] <;> trivial
  | dial i hpc hconn =>
    have hnone := hlock.unused s.nextConn (Nat.le_refl _)
    exact hkeep rfl hnone (s.setConn_congr Conn.channel (h.quiet _ hnone).symm)
      (s.setConn_congr Conn.pending hnone.symm) rfl
  | dialFails i hpc => exact hkeep rfl trivial (fun _ => rfl) (fun _ => rfl) rfl
  | marshalFails i c hpc => exact hkeep rfl trivial (fun _ => rfl) (fun _ => rfl) rfl
  | send i n handshake c line hpc hline hn hopen =>
    by_cases hzero : n = 0
    · have hfailed : n ≠ line.data.length := by
        rw [hzero, Line.data, List.length_append]
        exact Nat.ne_of_lt (Nat.succ_pos _)
      rw [if_neg hfailed, Conn.write, if_pos hzero]
      exact hkeep rfl trivial (s.setConn_congr Conn.channel rfl)
        (s.setConn_congr Conn.pending rfl) rfl
    · refine h.send hlock hpc hline ?_ hzero
      cases handshake with
      | false =>
        simp only [Client.sendsAlone, hpc, Bool.or_eq_true, decide_eq_true_eq,
          List.isEmpty_iff] at halone
        exact halone.resolve_left hzero
      | true => exact h.dialed i c hpc
  | recvLine i k handshake c buf hpc hline => exact h.recvLine hpc hline
  | recvMore i k handshake c buf hpc hline =>
    obtain ⟨howner, line, hcommand, hexchange⟩ := h.awaits i handshake c buf hpc
    refine h.change rfl rfl rfl (Nat.le_of_eq (by rw [howner]; rfl)) ?_
      (fun j hj => (h.other_of_receiving hpc j hj).1)
      (fun j hj => (h.other_of_receiving hpc j hj).2) (by simp) ?_ (by simp)
    · intro hnone
      rw [howner] at hnone
      cases hnone
    · rintro handshake' d buf' ⟨⟩
      exact ⟨rfl, howner, line, hcommand, hexchange.read k hline⟩
  | recvFails i handshake c buf hpc => exact hkeep rfl trivial (fun _ => rfl) (fun _ => rfl) rfl
  | closeDialed i c hpc =>
    exact hkeep rfl trivial (s.setConn_congr Conn.channel rfl) (s.setConn_congr Conn.pending rfl)
      rfl
  | closeConn i c hpc hconn =>
    refine hkeep rfl ?_ (s.setConn_congr Conn.channel rfl) (s.setConn_congr Conn.pending rfl) rfl
    rcases P.afterClose_cases i with heq | heq <;> rw [heq] <;> trivial
  | closeNone i hpc hconn =>
    refine hkeep rfl ?_ (fun _ => rfl) (fun _ => rfl) rfl
    rcases P.afterClose_cases i with heq | heq <;> rw [heq] <;> trivial
  | serverRead c k =>
    refine h.serve rfl rfl (fun a ha => ha) ?_ ?_
    · intro hnone
      rw [h.quiet c hnone, Channel.serverRead_empty]
    · intro o line buf _ hexchange
      exact hexchange.serverRead k
  | serverAnswer c reply owner request hrequest =>
    refine h.serve rfl rfl (fun a ha => List.mem_append_left _ ha) ?_ ?_
    · intro hnone
      rw [h.quiet c hnone] at hrequest
      cases hrequest
    · intro o line buf _ hexchange
      obtain ⟨rfl, rfl, -⟩ := hexchange.request_eq line.newline_notMem hrequest
      refine (hexchange.mono fun r hr => List.mem_append_left _ hr).answer line.newline_notMem
        hrequest reply.newline_notMem ?_
      exact List.mem_append_right _ (List.mem_singleton.mpr rfl)
  | serverClose c =>
    refine h.move (s.setConn_congr Conn.channel rfl) (s.setConn_congr Conn.pending rfl) rfl
      fun j => .inl rfl

end Traffic

/-! ## Runs -/

theorem Locking.init : Locking .init := by
  refine ⟨?_, ?_, ?_, fun _ _ => rfl, ?_⟩
  · rintro i ⟨⟩
  · rintro c ⟨⟩
  all_goals rintro i c ⟨⟩

theorem Traffic.init (P : Program) : Traffic P .init := by
  refine ⟨fun _ => Nat.zero_le _, fun _ _ => rfl, ?_, ?_, ?_⟩
  · rintro i c ⟨⟩
  · rintro i handshake c buf ⟨⟩
  · rintro i data ⟨⟩

theorem traffic_of_guarded {as : List Action} (h : exec P.step .init as = some s)
    (halone : Guarded P.step (fun s a => s.sendsAlone a = true) .init as) : Traffic P s := by
  have hboth : Locking s ∧ Traffic P s := by
    refine exec_invariant_of_guard (P := fun s => Locking s ∧ Traffic P s) ?_
      ⟨Locking.init, Traffic.init P⟩ halone h
    rintro s a s' ⟨hlock, htraffic⟩ ha hstep
    have htransition := Step.of_step hstep
    exact ⟨hlock.step htransition, htraffic.step hlock htransition ha⟩
  exact hboth.2

/-- With one request at most, a command was sent alone. -/
theorem sendsAlone_of_oneOutstanding {s' : Client} {a : Action} (hstep : P.step s a = some s')
    (hone : s'.OneOutstanding) : s.sendsAlone a = true := by
  cases Step.of_step hstep with
  | send i n handshake c line hpc hline hn hopen =>
    cases handshake with
    | true => simp only [Client.sendsAlone, hpc]
    | false =>
      simp only [Client.sendsAlone, hpc, Bool.or_eq_true, decide_eq_true_eq, List.isEmpty_iff]
      by_cases hzero : n = 0
      · exact .inl hzero
      · right
        have hlength := hone c
        simp only [Client.setPc, Client.setConn_self, Conn.write, if_neg hzero,
          List.length_append, List.length_singleton] at hlength
        exact List.length_eq_zero_iff.mp (by omega)
  | _ => rfl

/-- **Replies are matched exactly when commands are sent alone**: every call that returned a reply
returned the one to its own command, if and only if every command was written while no request was
outstanding on its connection. -/
theorem replies_matched_iff (P : Program) (as : List Action) (s : Client)
    (h : exec P.step .init as = some s) :
    Guarded P.step (fun s a => s.sendsAlone a = true) .init as ↔
      ∀ bs cs t, as = bs ++ cs → exec P.step .init bs = some t →
        t.OneOutstanding ∧ t.Matched P := by
  constructor
  · rintro halone bs cs t rfl ht
    have htraffic := traffic_of_guarded ht halone.of_append
    exact ⟨htraffic.one, htraffic.replied⟩
  · intro hprop
    refine guarded_iff.mpr fun bs a cs t heq ht => ?_
    rw [heq] at h
    obtain ⟨t', ht', hrest⟩ := (exec_append_eq_some P.step).mp h
    obtain rfl := some.inj (ht.symm.trans ht')
    obtain ⟨u, hstep, -⟩ := (exec_cons_eq_some P.step).mp hrest
    have hu : exec P.step .init (bs ++ [a]) = some u :=
      (exec_append_eq_some P.step).mpr ⟨t, ht, (exec_cons_eq_some P.step).mpr ⟨u, hstep, rfl⟩⟩
    have hsplit : as = (bs ++ [a]) ++ cs := by
      rw [heq, List.append_assoc, List.singleton_append]
    exact sendsAlone_of_oneOutstanding hstep (hprop (bs ++ [a]) cs u hsplit hu).1

/-! ### Two calls on one connection -/

def pingLine : Line := ⟨ascii "\x7b\"command\":\"ping\"\x7d", by decide⟩

def infoLine : Line := ⟨ascii "\x7b\"command\":\"info\"\x7d", by decide⟩

/-- The reply to the handshake and to `ping`. -/
def okLine : Line := ⟨ascii "\x7b\"status\":\"OK\"\x7d", by decide⟩

/-- Call 0 is `ping`, every other call is `info`. -/
def pingAndInfo : Program where
  calls i := .runCommand (some (if i = 0 then pingLine else infoLine))
  decode _ := .ok

/-- Call 0 dials, shakes hands and releases the mutex. -/
def dialFirst : List Action :=
  [.lock 0, .dialContext 0 true, .send 0 17, .serverRead 0 17, .serverAnswer 0 okLine, .recv 0 16]

def infoReply : Line := ⟨ascii "\x7b\"status\":\"OK\",\"message\":\"\"\x7d", by decide⟩

/-- Both calls take the connection; call 1 writes its command when call 0 has read its reply. -/
def takeTurns : List Action :=
  dialFirst ++ [.lock 1, .useConn 1, .send 0 19, .serverRead 0 19, .serverAnswer 0 okLine,
    .recv 0 16, .send 1 19, .serverRead 0 19, .serverAnswer 0 infoReply, .recv 1 29]

/-- `ping` and `info` in turns get their own replies. -/
theorem replies_matched_in_turns :
    ∃ s, exec pingAndInfo.step .init takeTurns = some s ∧
      s.pc 0 = .returned (.reply okLine.data) ∧ s.pc 1 = .returned (.reply infoReply.data) ∧
      s.OneOutstanding ∧ s.Matched pingAndInfo := by
  have hrun : (exec pingAndInfo.step .init takeTurns).map (fun s => (s.pc 0, s.pc 1)) =
      some (.returned (.reply okLine.data), .returned (.reply infoReply.data)) := by
    decide +kernel
  have halone : Guarded pingAndInfo.step (fun s a => s.sendsAlone a = true) .init takeTurns := by
    decide +kernel
  obtain ⟨s, hs, hpc⟩ := map_eq_some_iff.mp hrun
  obtain ⟨hping, hinfo⟩ := Prod.mk.inj hpc
  exact ⟨s, hs, hping, hinfo, (replies_matched_iff pingAndInfo takeTurns s hs).mp halone
    takeTurns [] s (List.append_nil _).symm hs⟩

def bothSend : List Action := dialFirst ++ [.lock 1, .useConn 1, .send 0 19, .send 1 19]

/-- The server reads both requests, answers the first, and call 1 reads the answer. -/
def firstAnswered : List Action := [.serverRead 0 38, .serverAnswer 0 okLine, .recv 1 16]

/-- Two requests are outstanding, and `info` returns the reply to `ping`. -/
theorem info_returns_reply_to_ping :
    ((exec pingAndInfo.step .init bothSend).map fun s => (s.conns 0).pending) =
        some [⟨0, false⟩, ⟨1, false⟩] ∧
      ∃ s, exec pingAndInfo.step .init (bothSend ++ firstAnswered) = some s ∧
        s.pc 1 = .returned (.reply okLine.data) ∧
        s.answers = [⟨0, ⟨0, true⟩, versionLine.text, okLine.text⟩,
          ⟨0, ⟨0, false⟩, pingLine.text, okLine.text⟩] ∧
        ¬ s.Matched pingAndInfo := by
  have hrun : (exec pingAndInfo.step .init (bothSend ++ firstAnswered)).map
      (fun s => (s.pc 1, s.answers)) = some (.returned (.reply okLine.data),
        [⟨0, ⟨0, true⟩, versionLine.text, okLine.text⟩,
          ⟨0, ⟨0, false⟩, pingLine.text, okLine.text⟩]) := by decide +kernel
  obtain ⟨s, hs, heq⟩ := map_eq_some_iff.mp hrun
  obtain ⟨hpc, hanswers⟩ := Prod.mk.inj heq
  refine ⟨by decide +kernel, s, hs, hpc, hanswers, fun hmatched => ?_⟩
  obtain ⟨line, a, -, ha, howner, -⟩ := hmatched 1 _ hpc
  rw [hanswers] at ha
  -- no answer of the server belongs to call 1
  simp only [List.mem_cons, List.not_mem_nil, or_false] at ha
  rcases ha with rfl | rfl <;> cases howner

end CloudProbe.Golib
