import CloudProbe.Golib.UnixReplies

/-!
# Calls one after the other

When a command is written only while no other `RunCommand` is between its own write and its return,
commands are sent alone (`sendsAlone_of_serial`), so replies are matched (`serial_calls_matched`).
This is what holding the mutex for the whole call would give.

The mutex does give that an open connection is the client's, or one on which the handshake is made
(`Open`). So a call that returns after an error has closed the connection it wrote to (`Settled`).
-/

namespace CloudProbe.Golib

open Lib Option

/-- Call `j` has written its command and has not returned. -/
def Unreturned (P : Program) (s : Client) (j : ℕ) : Prop :=
  match s.pc j with
  | .receiving false _ _ => True
  | .failed false _ => True
  | .closing => (P.line ⟨j, false⟩).isSome = true
  | _ => False

/-- A command is written only while no other call has written its command and not returned. -/
def Serial (P : Program) (s : Client) (a : Action) : Prop :=
  ∀ i n, a = .send i n → ∀ j, j ≠ i → ¬ Unreturned P s j

/-! ## Open connections -/

/-- A connection that is open is the one of the client, or the handshake is made on it. -/
structure Open (s : Client) : Prop where
  current : ∀ c, (s.conns c).isOpen = true → s.conn = some c ∨ ∃ i, (s.pc i).dialing = some c
  unset : ∀ i c, (s.pc i).dialing = some c → s.conn = none

namespace Open

variable {P : Program} {s s' : Client}

variable {i c : ℕ}

theorem dialing_update {p : Pc} (hpc : s'.pc = Function.update s.pc i p)
    (hp : p.dialing = (s.pc i).dialing) (j : ℕ) : (s'.pc j).dialing = (s.pc j).dialing := by
  rw [hpc]
  by_cases hj : j = i
  · rw [hj, Function.update_self, hp]
  · rw [Function.update_of_ne hj]

/-- A step that opens nothing and keeps who dials keeps the open connections. -/
theorem move (h : Open s) (hdialing : ∀ j, (s'.pc j).dialing = (s.pc j).dialing)
    (hconn : s'.conn = s.conn)
    (hopen : ∀ c, (s'.conns c).isOpen = true → (s.conns c).isOpen = true) : Open s' := by
  constructor
  · intro c hc
    rw [hconn]
    exact (h.current c (hopen c hc)).imp_right fun ⟨j, hj⟩ => ⟨j, (hdialing j).trans hj⟩
  · intro j c hj
    rw [hconn]
    exact h.unset j c ((hdialing j).symm.trans hj)

theorem eq_of_dialing (hlock : Locking s) {j : ℕ} (hi : (s.pc i).holdsMu = true)
    (hj : (s.pc j).dialing = some c) : j = i := by
  have hmu := hlock.holder j (Pc.holdsMu_of_dialing hj)
  rw [hlock.holder i hi] at hmu
  exact (some.inj hmu).symm

theorem eq_of_holds (h : Open s) (hlock : Locking s) (hi : (s.pc i).holdsMu = true)
    (hnot : (s.pc i).dialing = none) (hc : (s.conns c).isOpen = true) : s.conn = some c := by
  rcases h.current c hc with hconn | ⟨j, hj⟩
  · exact hconn
  · rw [eq_of_dialing hlock hi hj, hnot] at hj
    cases hj

theorem eq_of_open (h : Open s) (hlock : Locking s) {d : ℕ} (hi : (s.pc i).dialing = some c)
    (hd : (s.conns d).isOpen = true) : d = c := by
  rcases h.current d hd with hconn | ⟨j, hj⟩
  · rw [h.unset i c hi] at hconn
    cases hconn
  · rw [eq_of_dialing hlock (Pc.holdsMu_of_dialing hi) hj, hi] at hj
    exact (some.inj hj).symm

theorem release (hlock : Locking s) {p : Pc} (hi : (s.pc i).holdsMu = true)
    (hpc : s'.pc = Function.update s.pc i p) (hp : p.dialing = none)
    (hopen : ∀ c, (s'.conns c).isOpen = true → s'.conn = some c) : Open s' := by
  refine ⟨fun c hc => .inl (hopen c hc), fun j c hj => ?_⟩
  rw [hpc] at hj
  by_cases hji : j = i
  · rw [hji, Function.update_self, hp] at hj
    cases hj
  · rw [Function.update_of_ne hji] at hj
    exact absurd (eq_of_dialing hlock hi hj) hji

theorem isOpen_of_setConn {x : Conn} (hx : x.isOpen = true → (s.conns c).isOpen = true) (d : ℕ)
    (hd : ((s.setConn c x).conns d).isOpen = true) : (s.conns d).isOpen = true := by
  by_cases hdc : d = c
  · subst hdc
    rw [s.setConn_self] at hd
    exact hx hd
  · rw [s.setConn_of_ne x hdc] at hd
    exact hd

/-- The end of a handshake publishes the open connection. -/
theorem received (h : Open s) (hlock : Locking s) {handshake : Bool}
    {buf : List (Marked UInt8 Owner)} (hpc : s.pc i = .receiving handshake c buf) {x : Conn}
    (hx : x.isOpen = true → (s.conns c).isOpen = true) (data : List UInt8) :
    Open (P.received (s.setConn c x) i handshake c data) := by
  have hopen := isOpen_of_setConn hx
  rcases P.received_cases (s.setConn c x) i handshake c data with
    ⟨rfl, heq⟩ | heq | ⟨rfl, heq | heq⟩
  · have hdialing : (s.pc i).dialing = some c := by rw [hpc]; rfl
    rw [heq]
    refine release hlock (Pc.holdsMu_of_dialing hdialing) rfl ?_ fun d hd => ?_
    · rcases P.afterConn_cases i c with hafter | hafter <;> rw [hafter] <;> rfl
    · exact congrArg some (h.eq_of_open hlock hdialing (hopen d hd)).symm
  · rw [heq]
    refine h.move (dialing_update rfl ?_) rfl hopen
    rw [hpc]
    cases handshake <;> rfl
  all_goals
    rw [heq]
    exact h.move (dialing_update rfl (by rw [hpc]; rfl)) rfl hopen

/-- **The step lemma**: an open connection is that of the client, or is being dialed. -/
theorem step (h : Open s) (hlock : Locking s) {a : Action} (hstep : Step P s a s') : Open s' := by
  cases hstep with
  | lock i p hmu hp =>
    -- nobody holds the mutex, so nobody is dialing
    have hnot : (s.pc i).dialing = none := by
      rcases hdialing : (s.pc i).dialing with _ | c
      · rfl
      · have hholder := hlock.holder i (Pc.holdsMu_of_dialing hdialing)
        rw [hmu] at hholder
        cases hholder
    refine h.move (dialing_update rfl ?_) rfl (fun _ hc => hc)
    rw [hnot]
    rcases P.afterLock_cases hp with rfl | rfl <;> rfl
  | useConn i c hpc hconn =>
    refine h.move (dialing_update rfl ?_) rfl (fun _ hc => hc)
    rw [hpc]
    rcases P.afterConn_cases i c with heq | heq <;> rw [heq] <;> rfl
  | dial i hpc hconn =>
    constructor
    · intro c hc
      by_cases hnew : c = s.nextConn
      · exact .inr ⟨i, by rw [hnew, Client.setPc_self]; rfl⟩
      · have hold : (s.conns c).isOpen = true := by
          rw [← s.setConn_of_ne ⟨true, true, .empty, []⟩ hnew]
          exact hc
        have hcurrent := h.eq_of_holds hlock (i := i) (by rw [hpc]; rfl) (by rw [hpc]; rfl) hold
        rw [hconn] at hcurrent
        cases hcurrent
    · exact fun _ _ _ => hconn
  | dialFails i hpc | marshalFails i c hpc | closeNone i hpc hconn =>
    exact h.move (dialing_update rfl (by rw [hpc]; rfl)) rfl (fun _ hc => hc)
  | send i n handshake c line hpc hline hn hopen =>
    refine h.move (dialing_update rfl ?_) rfl (isOpen_of_setConn ?_)
    · rw [hpc]
      split_ifs <;> cases handshake <;> rfl
    · intro hx
      unfold Conn.write at hx
      split_ifs at hx <;> exact hx
  | recvLine i k handshake c buf hpc hline =>
    exact h.received hlock hpc (by simp [Conn.readLine]) _
  | recvMore i k handshake c buf hpc hline =>
    refine h.move (dialing_update rfl ?_) rfl (isOpen_of_setConn fun hx => hx)
    rw [hpc]
    cases handshake <;> rfl
  | recvFails i handshake c buf hpc =>
    refine h.move (dialing_update rfl ?_) rfl (fun _ hc => hc)
    rw [hpc]
    cases handshake <;> rfl
  | closeDialed i c hpc =>
    have hdialing : (s.pc i).dialing = some c := by rw [hpc]; rfl
    refine release hlock (Pc.holdsMu_of_dialing hdialing) rfl rfl fun d hd => ?_
    by_cases hdc : d = c
    · rw [hdc] at hd
      exact absurd hd (by simp [Client.closeConn, Client.setPc])
    · exact absurd (h.eq_of_open hlock hdialing (isOpen_of_setConn (by simp) d hd)) hdc
  | closeConn i c hpc hconn =>
    refine release hlock (i := i) (by rw [hpc]; rfl) rfl rfl fun d hd => ?_
    by_cases hdc : d = c
    · rw [hdc] at hd
      exact absurd hd (by simp [Client.closeConn, Client.setPc])
    · have hcurrent := h.eq_of_holds hlock (i := i) (by rw [hpc]; rfl) (by rw [hpc]; rfl)
        (isOpen_of_setConn (by simp) d hd)
      rw [hconn] at hcurrent
      exact absurd (some.inj hcurrent).symm hdc
  | serverRead c k | serverAnswer c reply owner request hrequest | serverClose c =>
    exact h.move (fun _ => rfl) rfl (isOpen_of_setConn fun hx => hx)

end Open

/-! ## Requests that are left behind -/

/-- A call that has an outstanding request on connection `c`, of its handshake or of its command, is
still busy with it. -/
def Pc.Busy (p : Pc) (c : ℕ) (handshake : Bool) : Prop :=
  (∃ buf, p = .receiving handshake c buf) ∨ p = .failed handshake c ∨
    (p = .haveConn true c ∧ handshake = true) ∨ (p = .closing ∧ handshake = false)

/-- Requests on an open connection belong to calls that are busy with them. -/
structure Settled (P : Program) (s : Client) : Prop where
  written : ∀ c o, o ∈ (s.conns c).pending → (P.line o).isSome = true
  busy : ∀ c o, o ∈ (s.conns c).pending → (s.conns c).isOpen = true →
    (s.pc o.call).Busy c o.handshake

namespace Settled

variable {P : Program} {s s' : Client}

variable {i : ℕ} {handshake : Bool}

/-- A step of one call keeps the requests settled when new ones are its own. -/
theorem move (h : Settled P s) {p : Pc} (hpc : s'.pc = Function.update s.pc i p)
    (hmem : ∀ c o, o ∈ (s'.conns c).pending →
      o ∈ (s.conns c).pending ∨ (P.line o).isSome = true ∧ o.call = i ∧ p.Busy c o.handshake)
    (hopen : ∀ c o, o ∈ (s'.conns c).pending → (s'.conns c).isOpen = true →
      (s.conns c).isOpen = true)
    (hp : ∀ c o, o ∈ (s'.conns c).pending → (s'.conns c).isOpen = true → o.call = i →
      (s.pc i).Busy c o.handshake → p.Busy c o.handshake) : Settled P s' := by
  refine ⟨fun c o ho => ?_, fun c o ho hc => ?_⟩
  · rcases hmem c o ho with hold | ⟨hline, -⟩
    · exact h.written c o hold
    · exact hline
  · rw [hpc]
    rcases hmem c o ho with hold | ⟨-, hcall, hnew⟩
    · have hbusy := h.busy c o hold (hopen c o ho hc)
      by_cases hi : o.call = i
      · rw [hi, Function.update_self]
        exact hp c o ho hc hi (hi ▸ hbusy)
      · rw [Function.update_of_ne hi]
        exact hbusy
    · rw [hcall, Function.update_self]
      exact hnew

/-- A step of one call that adds and removes no request keeps them settled. -/
theorem carry (h : Settled P s) {p : Pc} (hpc : s'.pc = Function.update s.pc i p)
    (hpending : ∀ c, (s'.conns c).pending = (s.conns c).pending)
    (hopen : ∀ c, (s.conns c).pending ≠ [] → (s'.conns c).isOpen = true →
      (s.conns c).isOpen = true)
    (hp : ∀ c handshake, (s'.conns c).isOpen = true → (s.pc i).Busy c handshake →
      p.Busy c handshake) : Settled P s' := by
  refine h.move hpc (fun c o ho => .inl (hpending c ▸ ho)) (fun c o ho hc => ?_)
    fun c o _ hc _ hbusy => hp c o.handshake hc hbusy
  rw [hpending] at ho
  exact hopen c (List.ne_nil_of_mem ho) hc

theorem busy_afterLock {c : ℕ} {q p : Pc} (hp : P.afterLock i q = some p) (hq : q.Busy c handshake)
    : p.Busy c handshake := by
  rcases hq with ⟨buf, rfl⟩ | rfl | ⟨rfl, -⟩ | ⟨rfl, -⟩
  · cases hp
  · cases handshake with
    | false =>
      obtain rfl := some.inj hp
      exact .inr (.inr (.inr ⟨rfl, rfl⟩))
    | true => cases hp
  all_goals cases hp

/-- A write leaves a request of the call that is busy with it. -/
theorem send (h : Settled P s) {n c : ℕ} {line : Line} (hpc : s.pc i = .haveConn handshake c)
    (hline : P.line ⟨i, handshake⟩ = some line) :
    Settled P ((s.setConn c ((s.conns c).write ⟨i, handshake⟩ line n)).setPc i
      (if n = line.data.length then .receiving handshake c [] else .failed handshake c)) := by
  have hnew : Pc.Busy (if n = line.data.length then .receiving handshake c []
      else .failed handshake c) c handshake := by
    split_ifs <;> simp [Pc.Busy]
  have hwrite : ∀ o ∈ ((s.conns c).write ⟨i, handshake⟩ line n).pending,
      o ∈ (s.conns c).pending ∨ o = ⟨i, handshake⟩ := by
    intro o ho
    unfold Conn.write at ho
    split_ifs at ho
    · exact .inl ho
    · simpa using ho
  have hopen : ((s.conns c).write ⟨i, handshake⟩ line n).isOpen = (s.conns c).isOpen := by
    unfold Conn.write
    split_ifs <;> rfl
  refine h.move rfl ?_ ?_ ?_
  · intro d o ho
    by_cases hdc : d = c
    · subst hdc
      rw [Client.setPc, Client.setConn_self] at ho
      rcases hwrite o ho with hold | rfl
      · exact .inl hold
      · exact .inr ⟨by rw [hline]; rfl, rfl, hnew⟩
    · rw [Client.setPc, Client.setConn_of_ne s _ hdc] at ho
      exact .inl ho
  · exact fun d _ _ => Open.isOpen_of_setConn (by rw [hopen]; exact id) d
  · intro d o _ _ _ hbusy
    obtain ⟨⟨rfl, rfl⟩, ho⟩ : (handshake = true ∧ c = d) ∧ o.handshake = true := by
      simpa [hpc, Pc.Busy] using hbusy
    rw [ho]
    exact hnew

/-- A reply that is read leaves no request behind. -/
theorem recvLine (h : Settled P s) (htraffic : Traffic P s) {k c : ℕ}
    {buf : List (Marked UInt8 Owner)} {data : List UInt8}
    (hpc : s.pc i = .receiving handshake c buf) :
    Settled P (P.received (s.setConn c ((s.conns c).readLine ⟨i, handshake⟩ k)) i handshake c
      data) := by
  set x := (s.conns c).readLine ⟨i, handshake⟩ k with hx
  have hfree : x.pending = [] := by
    rw [hx, Conn.readLine, (htraffic.awaits i handshake c buf hpc).1, List.erase_cons_head]
  -- whatever the line says, no request is left on the connection
  have hmoves : ∀ s' p, s'.pc = Function.update s.pc i p → s'.conns = (s.setConn c x).conns →
      Settled P s' := by
    intro s' p hpc' hconns
    have hne : ∀ d o, o ∈ (s'.conns d).pending → d ≠ c := by
      rintro d o ho rfl
      rw [hconns, s.setConn_self, hfree] at ho
      cases ho
    refine h.move hpc' ?_ ?_ ?_
    · intro d o ho
      have hdc := hne d o ho
      rw [hconns, s.setConn_of_ne x hdc] at ho
      exact .inl ho
    · intro d o ho hd
      rw [hconns, s.setConn_of_ne x (hne d o ho)] at hd
      exact hd
    · intro d o ho _ _ hbusy
      obtain ⟨-, rfl⟩ : handshake = o.handshake ∧ c = d := by simpa [hpc, Pc.Busy] using hbusy
      exact absurd rfl (hne _ o ho)
  rcases P.received_cases (s.setConn c x) i handshake c data with
    ⟨-, heq⟩ | heq | ⟨-, heq | heq⟩
  all_goals
    rw [heq]
    exact hmoves _ _ rfl rfl

/-- **The step lemma**: no open connection has a request that was left behind. -/
theorem step (h : Settled P s) (hlock : Locking s) (hconns : Open s) (htraffic : Traffic P s)
    {a : Action} (hstep : Step P s a s') : Settled P s' := by
  cases hstep with
  | lock i p hmu hp =>
    exact h.carry rfl (fun _ => rfl) (fun _ _ hc => hc) fun _ _ _ hbusy => busy_afterLock hp hbusy
  | useConn i c hpc hconn | dialFails i hpc | marshalFails i c hpc =>
    exact h.carry rfl (fun _ => rfl) (fun _ _ hc => hc) (by simp [hpc, Pc.Busy])
  | dial i hpc hconn =>
    have hnone := hlock.unused s.nextConn (Nat.le_refl _)
    refine h.carry rfl (s.setConn_congr Conn.pending hnone.symm) ?_ (by simp [hpc, Pc.Busy])
    intro c hpending hc
    have hold : c ≠ s.nextConn := fun hnew => hpending (hnew ▸ hnone)
    rw [← s.setConn_of_ne ⟨true, true, .empty, []⟩ hold]
    exact hc
  | send i n handshake c line hpc hline hn hopen => exact h.send hpc hline
  | recvLine i k handshake c buf hpc hline => exact h.recvLine htraffic hpc
  | recvMore i k handshake c buf hpc hline =>
    refine h.carry rfl (s.setConn_congr Conn.pending rfl)
      (fun d _ => Open.isOpen_of_setConn (by exact id) d) ?_
    intro d handshake' _ hbusy
    simpa [hpc, Pc.Busy] using hbusy
  | recvFails i handshake c buf hpc =>
    refine h.carry rfl (fun _ => rfl) (fun _ _ hc => hc) ?_
    intro d handshake' _ hbusy
    simpa [hpc, Pc.Busy] using hbusy
  | closeDialed i c hpc =>
    refine h.carry rfl (s.setConn_congr Conn.pending rfl)
      (fun d _ => Open.isOpen_of_setConn (by simp) d) ?_
    intro d handshake hd hbusy
    obtain ⟨rfl, rfl⟩ : true = handshake ∧ c = d := by simpa [hpc, Pc.Busy] using hbusy
    exact absurd hd (by simp [Client.closeConn, Client.setPc])
  | closeConn i c hpc hconn =>
    refine h.carry rfl (s.setConn_congr Conn.pending rfl)
      (fun d _ => Open.isOpen_of_setConn (by simp) d) ?_
    -- the connection of the client was the only open one
    intro d handshake hd _
    have hcurrent := hconns.eq_of_holds hlock (i := i) (by rw [hpc]; rfl) (by rw [hpc]; rfl)
      (Open.isOpen_of_setConn (by simp) d hd)
    obtain rfl := some.inj (hconn.symm.trans hcurrent)
    exact absurd hd (by simp [Client.closeConn, Client.setPc])
  | closeNone i hpc hconn =>
    refine h.carry rfl (fun _ => rfl) (fun _ _ hc => hc) ?_
    intro d handshake hd _
    have hcurrent := hconns.eq_of_holds hlock (i := i) (by rw [hpc]; rfl) (by rw [hpc]; rfl) hd
    rw [hconn] at hcurrent
    cases hcurrent
  | serverRead c k | serverAnswer c reply owner request hrequest | serverClose c =>
    exact h.carry (Function.update_eq_self 0 s.pc).symm (s.setConn_congr Conn.pending rfl)
      (fun d _ => Open.isOpen_of_setConn (by exact id) d) fun _ _ _ hbusy => hbusy

end Settled

/-! ## Runs -/

theorem Open.init : Open .init := by
  constructor
  · rintro c ⟨⟩
  · rintro i c ⟨⟩

theorem Settled.init (P : Program) : Settled P .init := by
  constructor
  all_goals rintro c o ⟨⟩

variable {P : Program}

/-- Commands one after the other are sent alone. -/
theorem Settled.sendsAlone {s s' : Client} {a : Action} (h : Settled P s) (hlock : Locking s)
    (hstep : P.step s a = some s') (hserial : Serial P s a) :
    s.sendsAlone a = true := by
  cases Step.of_step hstep with
  | send i n handshake c line hpc hline hn hopen =>
    cases handshake with
    | true => simp only [Client.sendsAlone, hpc]
    | false =>
      simp only [Client.sendsAlone, hpc, Bool.or_eq_true, decide_eq_true_eq, List.isEmpty_iff]
      by_cases hzero : n = 0
      · exact .inl hzero
      · refine .inr (List.eq_nil_iff_forall_not_mem.mpr fun o ho => ?_)
        have hbusy := h.busy c o ho (hopen (Nat.pos_of_ne_zero hzero))
        rcases o with ⟨j, handshake⟩
        cases handshake with
        | true =>
          -- nobody shakes hands on a connection that another call has
          refine hlock.unpublished j c ?_ i hpc
          rcases hbusy with ⟨buf, hj⟩ | hj | ⟨hj, -⟩ | ⟨-, hj⟩
          · rw [hj]; rfl
          · rw [hj]; rfl
          · rw [hj]; rfl
          · cases hj
        | false =>
          have hne : j ≠ i := by
            rintro rfl
            simp [hpc, Pc.Busy] at hbusy
          refine hserial i n rfl j hne ?_
          rcases hbusy with ⟨buf, hj⟩ | hj | ⟨-, hj⟩ | ⟨hj, -⟩
          · simp only [Unreturned, hj]
          · simp only [Unreturned, hj]
          · cases hj
          · simp only [Unreturned, hj]
            exact h.written c _ ho
  | _ => rfl

/-- **Calls one after the other send their commands alone.** -/
theorem sendsAlone_of_serial (P : Program) (as : List Action) (s : Client)
    (h : exec P.step .init as = some s) (hserial : Guarded P.step (Serial P) .init as) :
    Guarded P.step (fun s a => s.sendsAlone a = true) .init as := by
  refine guarded_iff.mpr fun bs a cs t heq ht => ?_
  rw [heq] at h hserial
  obtain ⟨hlock, -, hsettled, -⟩ : Locking t ∧ Open t ∧ Settled P t ∧ Traffic P t := by
    refine exec_invariant_of_guard
      (P := fun s => Locking s ∧ Open s ∧ Settled P s ∧ Traffic P s) ?_
      ⟨Locking.init, Open.init, Settled.init P, Traffic.init P⟩ hserial.of_append ht
    rintro s b s' ⟨hlock, hopen, hsettled, htraffic⟩ hb hstep
    have htransition := Step.of_step hstep
    exact ⟨hlock.step htransition, hopen.step hlock htransition,
      hsettled.step hlock hopen htraffic htransition,
      htraffic.step hlock htransition (hsettled.sendsAlone hlock hstep hb)⟩
  obtain ⟨t', ht', hrest⟩ := (exec_append_eq_some P.step).mp h
  obtain rfl := some.inj (ht.symm.trans ht')
  obtain ⟨u, hstep, -⟩ := (exec_cons_eq_some P.step).mp hrest
  exact hsettled.sendsAlone hlock hstep (guarded_iff.mp hserial bs a cs t rfl ht)

/-- **Calls one after the other get their own replies**, also when writes and reads fail and the
server answers late. -/
theorem serial_calls_matched (P : Program) (as : List Action) (s : Client)
    (h : exec P.step .init as = some s) (hserial : Guarded P.step (Serial P) .init as) :
    s.OneOutstanding ∧ s.Matched P := by
  have htraffic := traffic_of_guarded h (sendsAlone_of_serial P as s h hserial)
  exact ⟨htraffic.one, htraffic.replied⟩

/-- The call that takes the step, if it is none of the server. -/
def Action.caller : Action → Option ℕ
  | .lock i | .useConn i | .dialContext i _ | .marshalFails i | .send i _ | .recv i _
  | .recvFails i | .closeDialed i | .close i => some i
  | .serverRead _ _ | .serverAnswer _ _ | .serverClose _ => none

def Action.sender : Action → Option ℕ
  | .send i _ => some i
  | _ => none

theorem pc_of_caller_ne {s s' : Client} {a : Action} {j : ℕ} (ha : a.caller ≠ some j)
    (hstep : P.step s a = some s') : s'.pc j = s.pc j := by
  cases Step.of_step hstep <;> simp only [Action.caller, ne_eq, some.injEq] at ha
  case serverRead | serverAnswer | serverClose => rfl
  case recvLine =>
    unfold Program.received
    split <;> exact Function.update_of_ne (Ne.symm ha) _ _
  all_goals exact Function.update_of_ne (Ne.symm ha) _ _

instance (P : Program) (s : Client) (j : ℕ) : Decidable (Unreturned P s j) := by
  unfold Unreturned
  split <;> infer_instance

/-- A run in which only the calls below `n` take part is serial when it is among them. -/
theorem guarded_serial_of_lt {as : List Action} {n : ℕ} (hcallers : ∀ a ∈ as, ∀ i ∈ a.caller, i < n)
    (h : Guarded P.step (fun s a => ∀ i ∈ a.sender, ∀ j < n, j ≠ i → ¬ Unreturned P s j) .init as) :
    Guarded P.step (Serial P) .init as := by
  refine guarded_iff.mpr fun bs a cs t heq ht i m ha j hj => ?_
  by_cases hlt : j < n
  · exact guarded_iff.mp h bs a cs t heq ht i (by rw [ha]; rfl) j hlt hj
  · have hcalled : t.pc j = .called := by
      refine exec_invariant_of_guard (P := fun s => s.pc j = .called)
        (G := fun _ a => a.caller ≠ some j) ?_ rfl ?_ ht
      · exact fun s a s' hs ha hstep => (pc_of_caller_ne ha hstep).trans hs
      · exact guarded_iff.mpr fun bs' a' cs' _ heq' _ hcaller =>
          hlt (hcallers a' (by simp [heq, heq']) j hcaller)
    simp [Unreturned, hcalled]

/-- Call 0 gives up waiting for its reply and closes the connection; call 1 dials anew. The server
answers call 0 on the old connection while call 1 waits. -/
def afterTimeout : List Action :=
  dialFirst ++ [.send 0 19, .recvFails 0, .lock 0, .close 0, .lock 1, .dialContext 1 true,
    .send 1 17, .serverRead 1 17, .serverAnswer 1 okLine, .recv 1 16, .send 1 19,
    .serverRead 0 19, .serverAnswer 0 okLine, .serverRead 1 19, .serverAnswer 1 infoReply,
    .recv 1 29]

/-- After a `ping` that timed out, `info` gets its own reply. -/
theorem serial_calls_matched_after_timeout :
    ∃ s, exec pingAndInfo.step .init afterTimeout = some s ∧ s.pc 0 = .returned .error ∧
      s.pc 1 = .returned (.reply infoReply.data) ∧ s.OneOutstanding ∧ s.Matched pingAndInfo := by
  have hrun : (exec pingAndInfo.step .init afterTimeout).map (fun s => (s.pc 0, s.pc 1)) =
      some (.returned .error, .returned (.reply infoReply.data)) := by decide +kernel
  have hserial : Guarded pingAndInfo.step (Serial pingAndInfo) .init afterTimeout := by
    apply guarded_serial_of_lt (n := 2)
    · decide
    · decide +kernel
  obtain ⟨s, hs, hpc⟩ := map_eq_some_iff.mp hrun
  obtain ⟨hping, hinfo⟩ := Prod.mk.inj hpc
  exact ⟨s, hs, hping, hinfo, serial_calls_matched pingAndInfo afterTimeout s hs hserial⟩

end CloudProbe.Golib
