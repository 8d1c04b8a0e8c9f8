import CloudProbe.Worker.Pipeline

/-!
# The pipeline refines run to completion

The invariant `Pipeline.Inv` ties a state of the two threads to the list `q` of messages in the ring
and the list `done` of messages whose outputs were all called:

* the messages of the whole input are the popped ones, then `q`, then the one the capture thread
  holds, then those still to come (`msgs`);
* the calls made are those of `done`, and the first few of the message being sent (`sent`);
* an index loaded earlier is still good for what it is used for (`CapPc.Ok`, `OutPc.Ok`): the
  producer's `head` is exact, the consumer's may be behind, but never in front of the queue;
* the drain after the main loop finds exactly the messages it counted (`OutPc.LastOk`).
-/

namespace CloudProbe.Worker

open CloudProbe.Lib List Option

variable {τ : Type*}

/-- The messages of a sequence of callback invocations: one for each packet with a full Ethernet
header and for each heartbeat. -/
def messages (es : List (CaptureEvent τ)) : List (RingMsg τ) :=
  (es.filter fun e => !e.tooShort).map CaptureEvent.toMsg

theorem rtcEvent_eq (numOutputs : τ → ℕ) (e : CaptureEvent τ) :
    rtcEvent numOutputs e =
      if e.tooShort then [] else outputSendPktMsg numOutputs e.toMsg := by
  obtain ⟨user, captured⟩ := e
  cases captured with
  | packet p direct =>
    have htake : p.data.take p.hdr.caplen.toNat = p.data := by
      rw [← p.data_length, take_length]
    simp only [rtcEvent, rtcCaptureTaskPacketCb, CaptureEvent.tooShort, CaptureEvent.toMsg,
      outputSendPktMsg, htake, decide_eq_true_eq]
  | heartbeat now => rfl

theorem rtcCalls_eq_messages (numOutputs : τ → ℕ) (es : List (CaptureEvent τ)) :
    rtcCalls numOutputs es = (messages es).flatMap (outputSendPktMsg numOutputs) := by
  induction es with
  | nil => rfl
  | cons e es ih =>
    have hcons : rtcCalls numOutputs (e :: es) =
        rtcEvent numOutputs e ++ rtcCalls numOutputs es := flatMap_cons
    rw [hcons, rtcEvent_eq, ih]
    by_cases he : e.tooShort = true
    all_goals simp [messages, he]

namespace Pipeline

/-! ### The invariant -/

/-- The message the capture thread holds and has not pushed. -/
def CapPc.held : CapPc τ → List (RingMsg τ)
  | .idle => []
  | .loadCapacity e | .loadUsed e _ | .reserve e _ _ | .malloc e | .unreserve e => [e.toMsg]
  | .loadHead m | .loadTail m _ | .writeSlot m _ | .storeHead m _ => [m]

def OutPc.held : OutPc τ → List (RingMsg τ)
  | .send _ m _ => [m]
  | _ => []

/-- The calls made for the message the output thread is sending. -/
def OutPc.calls (numOutputs : τ → ℕ) : OutPc τ → List (Sent τ)
  | .send _ m i => (outputSendPktMsg numOutputs m).take i
  | _ => []

/-- An index at most as far as the end of the queue. -/
def Behind (c : Queue (RingMsg τ)) (q : List (RingMsg τ)) (i : ℕ) : Prop :=
  ∃ k ≤ q.length, i = (c.tail + k) % c.size

def CapPc.Ok (c : Queue (RingMsg τ)) (q : List (RingMsg τ)) : CapPc τ → Prop
  | .loadTail _ head => head = c.head
  | .writeSlot _ head => head = c.head ∧ q.length + 1 < c.size
  | .storeHead m head => head = c.head ∧ q.length + 1 < c.size ∧ c.buf c.head = some m
  | _ => True

def OutPc.Ok (c : Queue (RingMsg τ)) (q : List (RingMsg τ)) : OutPc τ → Prop
  | .usedTail _ head => Behind c q head
  | .popTail _ head => Behind c q head
  | .popRead _ tail => tail = c.tail ∧ q ≠ []
  | .popStore _ tail m => tail = c.tail ∧ q.head? = some m
  | .fault => False
  | _ => True

def PopFor.isLast : PopFor → Bool
  | .mainLoop => false
  | .drain last _ => last

def OutPc.isLast : OutPc τ → Bool
  | .usedHead last | .usedTail last _ | .drainLoop last _ => last
  | .popHead k | .popTail k _ | .popRead k _ | .popStore k _ _ => k.isLast
  | .send k _ _ | .freeLoad k _ | .freeSub k _ => k.isLast
  | .exited => true
  | .loop | .request | .fault => false

/-- The rounds a drain has to go before the current one. -/
def PopFor.left : PopFor → ℕ
  | .mainLoop => 0
  | .drain _ left => left

/-- In the drain after the main loop, the queue holds exactly the messages that are still to be
popped. -/
def OutPc.LastOk (c : Queue (RingMsg τ)) (q : List (RingMsg τ)) : OutPc τ → Prop
  | .usedTail _ head => head = c.head
  | .drainLoop _ left => q.length = left
  | .popHead k | .popRead k _ | .popStore k _ _ => q.length = k.left + 1
  | .popTail k head => head = c.head ∧ q.length = k.left + 1
  | .send k _ _ | .freeLoad k _ | .freeSub k _ => q.length = k.left
  | .exited => q = []
  | _ => True

/-- The invariant of a run on the input `es`, with the messages `done` sent and `q` in the ring. -/
structure Inv (numOutputs : τ → ℕ) (es : List (CaptureEvent τ)) (s : State τ)
    (done q : List (RingMsg τ)) : Prop where
  holds : s.ring.Holds q
  fifo : s.pushed = s.popped ++ q
  popped : s.popped = done ++ s.out.held
  msgs : messages es = s.pushed ++ s.cap.held ++ messages s.inputs
  sent : s.sent = done.flatMap (outputSendPktMsg numOutputs) ++ s.out.calls numOutputs
  cap : s.cap.Ok s.ring q
  out : s.out.Ok s.ring q
  last : s.out.isLast = true → s.running = false ∧ s.out.LastOk s.ring q
  stopped : s.running = false → s.cap = .idle ∧ s.inputs = []

variable {numOutputs : τ → ℕ} {es : List (CaptureEvent τ)} {s s' : State τ}
  {done q : List (RingMsg τ)}

theorem inv_initial (size : ℕ) (hsize : 0 < size) (capacity : ℕ) :
    Inv numOutputs es (initial size hsize capacity es) [] [] where
  holds := Queue.holds_nil rfl rfl
  fifo := rfl
  popped := rfl
  msgs := rfl
  sent := rfl
  cap := trivial
  out := trivial
  last := by intro h; cases h
  stopped := by intro h; cases h

/-! ### Steps of the capture thread -/

variable {c : Queue (RingMsg τ)} {m : RingMsg τ} {pc : OutPc τ} {k : PopFor}

theorem Behind.push {i j : ℕ} (h : Behind c q i) :
    Behind (c.setHead j) (q ++ [m]) i := by
  obtain ⟨k, hk, hi⟩ := h
  refine ⟨k, ?_, hi⟩
  rw [length_append, length_singleton]
  omega

theorem Inv.running (h : Inv numOutputs es s done q)
    (hbusy : s.cap ≠ .idle ∨ s.inputs ≠ []) : s.running = true := by
  by_contra hrun
  obtain ⟨hidle, hnil⟩ := h.stopped (by simpa using hrun)
  rcases hbusy with hbusy | hbusy
  · exact hbusy hidle
  · exact hbusy hnil

/-- A step of the capture thread that pushes `new`. -/
theorem Inv.step_cap (h : Inv numOutputs es s done q) (hbusy : s.cap ≠ .idle ∨ s.inputs ≠ [])
    {p : CapPc τ} {i : List (CaptureEvent τ)} {u : ℕ} {ring : Queue (RingMsg τ)}
    {q' new : List (RingMsg τ)} (hq : q' = q ++ new) (hholds : ring.Holds q')
    (hmsgs : new ++ p.held ++ messages i = s.cap.held ++ messages s.inputs)
    (hok : p.Ok ring q') (hout : s.out.Ok ring q') :
    Inv numOutputs es
      { s with cap := p, inputs := i, used := u, ring := ring,
               pushed := s.pushed ++ new } done q' where
  holds := hholds
  fifo := by rw [h.fifo, hq, append_assoc]
  popped := h.popped
  msgs := by
    rw [h.msgs, append_assoc, ← hmsgs]
    simp only [append_assoc]
  sent := h.sent
  cap := hok
  out := hout
  last := by
    intro hlast
    have hrun := (h.last hlast).1
    rw [h.running hbusy] at hrun
    cases hrun
  stopped := by
    intro hstop
    rw [h.running hbusy] at hstop
    cases hstop

theorem Inv.move_cap (h : Inv numOutputs es s done q) (hbusy : s.cap ≠ .idle ∨ s.inputs ≠ [])
    {p : CapPc τ} {i : List (CaptureEvent τ)} {u : ℕ}
    (hmsgs : p.held ++ messages i = s.cap.held ++ messages s.inputs)
    (hok : p.Ok s.ring q) :
    Inv numOutputs es { s with cap := p, inputs := i, used := u } done q := by
  have hstep := h.step_cap hbusy (p := p) (i := i) (u := u)
    (append_nil q).symm h.holds (by simpa using hmsgs) hok h.out
  rw [append_nil] at hstep
  exact hstep

theorem OutPc.Ok.write (h : pc.Ok c q) (i : ℕ) (m : RingMsg τ) : pc.Ok (c.write i m) q := by
  cases pc <;> exact h

theorem OutPc.Ok.push (h : pc.Ok c q) (i : ℕ) (m : RingMsg τ) : pc.Ok (c.setHead i) (q ++ [m]) := by
  cases pc with
  | usedTail last head | popTail k head => exact Behind.push h
  | popRead k tail => exact ⟨h.1, by simp⟩
  | popStore k tail m' => exact ⟨h.1, by simp [List.head?_append, h.2]⟩
  | fault => exact h
  | _ => trivial

/-- **The step lemma** for the capture thread. -/
theorem inv_captureStep {spurious mallocOk : Bool} (h : Inv numOutputs es s done q)
    (hs : captureStep s spurious mallocOk = some s') : ∃ q', Inv numOutputs es s' done q' := by
  have hmove {p : CapPc τ} {u : ℕ} (hne : s.cap ≠ .idle) (hheld : p.held = s.cap.held)
      (hok : p.Ok s.ring q) : ∃ q', Inv numOutputs es { s with cap := p, used := u } done q' :=
    ⟨q, h.move_cap (.inl hne) (by rw [hheld]) hok⟩
  unfold captureStep at hs
  cases hcap : s.cap <;> simp only [hcap] at hs
  case idle =>
    cases hin : s.inputs with
    | nil => simp [hin] at hs
    | cons e rest =>
      rw [hin] at hs
      simp only at hs
      split_ifs at hs with he
      all_goals
        cases hs
        exact ⟨q, h.move_cap (.inr (by simp [hin])) (by simp [hcap, hin, messages, he, CapPc.held])
          trivial⟩
  case loadCapacity | loadUsed | unreserve =>
    cases hs
    exact hmove (by simp [hcap]) (by rw [hcap]; rfl) trivial
  case reserve | malloc =>
    split_ifs at hs
    all_goals
      cases hs
      exact hmove (by simp [hcap]) (by rw [hcap]; rfl) trivial
  case loadHead m =>
    cases hs
    exact hmove (by simp [hcap]) (by rw [hcap]; rfl) rfl
  case loadTail m head =>
    have hhead : head = s.ring.head := by simpa [hcap, CapPc.Ok] using h.cap
    split_ifs at hs with hfull <;> cases hs
    · exact hmove (by simp [hcap]) (by rw [hcap]; rfl) trivial
    · -- the ring was not full, and only this thread can fill it
      have hsp : q.length + 1 < s.ring.size := by
        rw [hhead, h.holds.full_iff] at hfull
        have := h.holds.length_lt
        omega
      exact hmove (by simp [hcap]) (by rw [hcap]; rfl) ⟨hhead, hsp⟩
  case writeSlot m head =>
    cases hs
    obtain ⟨hhead, hsp⟩ : head = s.ring.head ∧ q.length + 1 < s.ring.size := by
      simpa [hcap, CapPc.Ok] using h.cap
    subst hhead
    have hstep := h.step_cap (u := s.used) (.inl (by simp [hcap])) (append_nil q).symm
      (h.holds.write_head m) (p := .storeHead m s.ring.head) (i := s.inputs)
      (by simp [hcap, CapPc.held]) ⟨rfl, hsp, by simp [Queue.write]⟩ (h.out.write _ _)
    rw [append_nil] at hstep
    exact ⟨q, hstep⟩
  case storeHead m head =>
    cases hs
    obtain ⟨hhead, hsp, hbuf⟩ : head = s.ring.head ∧ q.length + 1 < s.ring.size ∧
        s.ring.buf s.ring.head = some m := by
      simpa [hcap, CapPc.Ok] using h.cap
    subst hhead
    exact ⟨q ++ [m], h.step_cap (u := s.used) (.inl (by simp [hcap])) rfl
      (h.holds.push hbuf hsp) (by simp [hcap, CapPc.held]) trivial (h.out.push _ _)⟩

/-! ### Steps of the output thread -/

theorem Inv.move_out (h : Inv numOutputs es s done q) {p : OutPc τ} {u : ℕ} (hpc : s.out = pc)
    (hheld : p.held = pc.held) (hcalls : p.calls numOutputs = pc.calls numOutputs)
    (hok : p.Ok s.ring q) (hlast : p.isLast = true → s.running = false ∧ p.LastOk s.ring q) :
    Inv numOutputs es { s with out := p, used := u } done q where
  holds := h.holds
  fifo := h.fifo
  popped := by rw [h.popped, hpc, hheld]
  msgs := h.msgs
  sent := by rw [h.sent, hpc, hcalls]
  cap := h.cap
  out := hok
  last := hlast
  stopped := h.stopped

variable (numOutputs q) in
theorem continue_facts (k : PopFor) :
    (k.continue : OutPc τ).held = [] ∧ (k.continue : OutPc τ).calls numOutputs = [] ∧
      (∀ c : Queue (RingMsg τ), (k.continue : OutPc τ).Ok c q) ∧
      ((k.continue : OutPc τ).isLast = true → k.isLast = true) ∧
      (∀ c : Queue (RingMsg τ), q.length = k.left → (k.continue : OutPc τ).LastOk c q) := by
  cases k with
  | mainLoop => exact ⟨rfl, rfl, fun _ => trivial, id, fun _ _ => trivial⟩
  | drain last left => exact ⟨rfl, rfl, fun _ => trivial, id, fun _ h => h⟩

variable (numOutputs q) in
theorem afterDrain_facts (last : Bool) :
    (afterDrain last : OutPc τ).held = [] ∧ (afterDrain last : OutPc τ).calls numOutputs = [] ∧
      (∀ c : Queue (RingMsg τ), (afterDrain last : OutPc τ).Ok c q) ∧
      (afterDrain last : OutPc τ).isLast = last ∧
      (∀ c : Queue (RingMsg τ), last = true → q = [] → (afterDrain last : OutPc τ).LastOk c q) := by
  cases last with
  | false => exact ⟨rfl, rfl, fun _ => trivial, rfl, by intro c h; cases h⟩
  | true => exact ⟨rfl, rfl, fun _ => trivial, rfl, fun _ _ h => h⟩

theorem CapPc.Ok.pop {pc : CapPc τ} (h : pc.Ok c (m :: q)) (i : ℕ) : pc.Ok (c.setTail i) q := by
  have hlen : ∀ {n}, (m :: q).length + 1 < n → q.length + 1 < n := by
    intro n hn
    rw [length_cons] at hn
    omega
  match pc with
  | .loadTail _ _ => exact h
  | .writeSlot _ _ => exact ⟨h.1, hlen h.2⟩
  | .storeHead _ _ => exact ⟨h.1, hlen h.2.1, h.2.2⟩
  | .idle | .loadCapacity _ | .loadUsed _ _ | .reserve _ _ _ | .malloc _ | .unreserve _
  | .loadHead _ => trivial

theorem Inv.pop (h : Inv numOutputs es s done (m :: q)) (hpc : s.out = .popStore k s.ring.tail m) :
    Inv numOutputs es
      { s with ring := s.ring.setTail (s.ring.next s.ring.tail), out := .send k m 0,
               popped := s.popped ++ [m] } done q where
  holds := h.holds.pop
  fifo := by rw [h.fifo]; simp
  popped := by rw [h.popped, hpc]; simp [OutPc.held]
  msgs := h.msgs
  sent := by rw [h.sent, hpc]; simp [OutPc.calls]
  cap := h.cap.pop _
  out := trivial
  last := by
    intro hl
    obtain ⟨hrun, hlen⟩ := h.last (by rw [hpc]; exact hl)
    rw [hpc] at hlen
    exact ⟨hrun, Nat.succ.inj hlen⟩
  stopped := h.stopped

/-- An output is called with the message popped. -/
theorem Inv.call {i : ℕ} {c : Sent τ} (h : Inv numOutputs es s done q) (hpc : s.out = .send k m i)
    (hget : (outputSendPktMsg numOutputs m)[i]? = some c) :
    Inv numOutputs es { s with sent := s.sent ++ [c], out := .send k m (i + 1) } done q where
  holds := h.holds
  fifo := h.fifo
  popped := by rw [h.popped, hpc]; rfl
  msgs := h.msgs
  sent := by
    obtain ⟨hi, hc⟩ := List.getElem?_eq_some_iff.mp hget
    simp only [h.sent, hpc, OutPc.calls, append_assoc]
    rw [take_succ_eq_append_getElem hi, hc]
  cap := h.cap
  out := trivial
  last := by
    intro hl
    have hlast := h.last (by rw [hpc]; exact hl)
    rw [hpc] at hlast
    exact hlast
  stopped := h.stopped

theorem Inv.called {i : ℕ} (h : Inv numOutputs es s done q) (hpc : s.out = .send k m i)
    (hget : (outputSendPktMsg numOutputs m)[i]? = none) :
    Inv numOutputs es { s with out := .freeLoad k m } (done ++ [m]) q where
  holds := h.holds
  fifo := h.fifo
  popped := by rw [h.popped, hpc]; simp [OutPc.held]
  msgs := h.msgs
  sent := by
    have hlen := List.getElem?_eq_none_iff.mp hget
    simp only [h.sent, hpc, OutPc.calls, take_of_length_le hlen]
    simp
  cap := h.cap
  out := trivial
  last := by
    intro hl
    have hlast := h.last (by rw [hpc]; exact hl)
    rw [hpc] at hlast
    exact hlast
  stopped := h.stopped

/-- **The step lemma** for the output thread. -/
theorem inv_outputStep {request : Bool} (h : Inv numOutputs es s done q)
    (hs : outputStep numOutputs s request = some s') :
    ∃ done' q', Inv numOutputs es s' done' q' := by
  have hmove {pc p : OutPc τ} {u : ℕ} (hpc : s.out = pc) (hheld : p.held = pc.held)
      (hcalls : p.calls numOutputs = pc.calls numOutputs) (hok : p.Ok s.ring q)
      (hlast : p.isLast = true → s.running = false ∧ p.LastOk s.ring q) :
      ∃ done' q', Inv numOutputs es { s with out := p, used := u } done' q' :=
    ⟨done, q, h.move_out hpc hheld hcalls hok hlast⟩
  unfold outputStep at hs
  have hout := h.out
  have hlast := h.last
  cases hpc : s.out <;> simp only [hpc] at hs hout hlast
  case loop =>
    cases hs
    split_ifs with hr
    · exact hmove hpc rfl rfl trivial nofun
    · exact hmove hpc rfl rfl trivial fun _ => ⟨by simpa using hr, trivial⟩
  case request =>
    cases hs
    split_ifs <;> exact hmove hpc rfl rfl trivial nofun
  case usedHead last =>
    cases hs
    exact hmove hpc rfl rfl ⟨q.length, le_rfl, h.holds.head_eq⟩ fun hl => ⟨(hlast hl).1, rfl⟩
  case usedTail last head =>
    cases hs
    obtain ⟨k, hk, hhead⟩ := hout
    rw [h.holds.distance hk head hhead]
    refine hmove hpc rfl rfl trivial fun hl => ?_
    obtain ⟨hrun, hhead'⟩ := hlast hl
    have hlen : k = q.length := by
      rw [← h.holds.offset_eq_head_iff hk, ← hhead]
      exact hhead'
    exact ⟨hrun, hlen.symm⟩
  case drainLoop last left =>
    cases left <;> simp only [some.injEq] at hs <;> subst hs
    · obtain ⟨hheld, hcalls, hok, hisl, hlok⟩ := afterDrain_facts numOutputs q last
      refine hmove hpc hheld hcalls (hok _) fun hl => ?_
      rw [hisl] at hl
      obtain ⟨hrun, hlen⟩ := hlast hl
      exact ⟨hrun, hlok _ hl (length_eq_zero_iff.mp hlen)⟩
    · exact hmove hpc rfl rfl trivial hlast
  case popHead k =>
    cases hs
    exact hmove hpc rfl rfl ⟨q.length, le_rfl, h.holds.head_eq⟩
      fun hl => ⟨(hlast hl).1, rfl, (hlast hl).2⟩
  case popTail k head =>
    obtain ⟨n, hn, hhead⟩ := hout
    have hempty := h.holds.between hn head hhead
    split_ifs at hs with hte <;> cases hs
    · cases k with
      | mainLoop => exact hmove hpc rfl rfl trivial nofun
      | drain last left =>
        obtain ⟨hheld, hcalls, hok, hisl, -⟩ := afterDrain_facts numOutputs q last
        refine hmove hpc hheld hcalls (hok _) fun hl => ?_
        -- the last drain counted this message, so it cannot find the ring empty
        obtain ⟨-, hhead', hlen⟩ := hlast (hisl ▸ hl)
        rw [hhead', h.holds.empty_iff] at hte
        rw [hte] at hlen
        simp at hlen
    · refine hmove hpc rfl rfl ⟨rfl, ?_⟩ fun hl => ⟨(hlast hl).1, (hlast hl).2.2⟩
      rintro rfl
      rw [hempty] at hte
      simp only [length_nil] at hn
      omega
  case popRead k tail =>
    obtain ⟨rfl, hne⟩ := hout
    obtain ⟨m, q', rfl⟩ := exists_cons_of_ne_nil hne
    rw [h.holds.getElem_tail] at hs
    cases hs
    exact hmove hpc rfl rfl ⟨rfl, rfl⟩ hlast
  case popStore k tail m =>
    cases hs
    obtain ⟨rfl, hhd⟩ := hout
    obtain ⟨q', rfl⟩ := List.head?_eq_some_iff.mp hhd
    exact ⟨done, q', h.pop hpc⟩
  case send k m i =>
    cases hget : (outputSendPktMsg numOutputs m)[i]? <;> rw [hget] at hs <;> cases hs
    · exact ⟨done ++ [m], q, h.called hpc hget⟩
    · exact ⟨done, q, h.call hpc hget⟩
  case freeLoad k m =>
    cases hs
    exact hmove hpc rfl rfl trivial hlast
  case freeSub k len =>
    cases hs
    obtain ⟨hheld, hcalls, hok, hisl, hlok⟩ := continue_facts numOutputs q k
    exact hmove hpc hheld hcalls (hok _)
      fun hl => ⟨(hlast (hisl hl)).1, hlok _ (hlast (hisl hl)).2⟩
  case exited | fault => cases hs

/-! ### Whole runs -/

/-- **The step lemma** for both threads. -/
theorem inv_step (s : State τ) (a : Act) (s' : State τ)
    (h : ∃ done q, Inv numOutputs es s done q) (hs : step numOutputs s a = some s') :
    ∃ done q, Inv numOutputs es s' done q := by
  obtain ⟨done, q, h⟩ := h
  cases a with
  | capture spurious mallocOk =>
    obtain ⟨q', h'⟩ := inv_captureStep h hs
    exact ⟨done, q', h'⟩
  | resize n =>
    simp only [step] at hs
    split at hs <;> cases hs
    exact ⟨done, q, h.holds, h.fifo, h.popped, h.msgs, h.sent, h.cap, h.out, h.last, h.stopped⟩
  | stop =>
    simp only [step] at hs
    split at hs
    next hcap hin =>
      cases hs
      exact ⟨done, q, h.holds, h.fifo, h.popped, h.msgs, h.sent, h.cap, h.out,
        fun hl => ⟨rfl, (h.last hl).2⟩, fun _ => ⟨hcap, hin⟩⟩
    next => cases hs
  | output request => exact inv_outputStep h hs

theorem step_size (s : State τ) (a : Act) (s' : State τ) (size : ℕ) (h : s.ring.size = size)
    (hs : step numOutputs s a = some s') : s'.ring.size = size := by
  rw [← h]
  cases a with
  | capture spurious mallocOk =>
    simp only [step, captureStep] at hs
    repeat' split at hs
    all_goals cases hs <;> rfl
  | resize n | stop =>
    simp only [step] at hs
    split at hs <;> cases hs
    rfl
  | output request =>
    simp only [step, outputStep] at hs
    repeat' split at hs
    all_goals cases hs <;> rfl

/-- The ring was drained after the last push: no input is left, the capture thread holds no message,
the ring is empty, and the output thread is not sending one. -/
def Drained (s : State τ) : Prop :=
  s.inputs = [] ∧ s.cap = .idle ∧ s.ring.tail = s.ring.head ∧ s.out.held = []

/-- What the outputs got, and that it is all when drained. -/
theorem Inv.sent_isPrefix (h : Inv numOutputs es s done q) :
    s.sent <+: rtcCalls numOutputs es ∧ (Drained s → s.sent = rtcCalls numOutputs es) := by
  rw [rtcCalls_eq_messages, h.msgs, h.fifo, h.popped, h.sent]
  constructor
  · simp only [flatMap_append, append_assoc]
    refine (prefix_append_right_inj _).mpr ?_
    cases s.out with
    | send k m i =>
      refine ( take_prefix i _).trans ?_
      simp only [OutPc.held, flatMap_singleton]
      exact prefix_append _ _
    | _ => exact nil_prefix
  · rintro ⟨hin, hcap, hempty, hheld⟩
    rw [h.holds.empty_iff] at hempty
    rw [hin, hcap, hempty, hheld]
    cases hout : s.out with
    | send k m i => simp [hout, OutPc.held] at hheld
    | _ => simp [OutPc.calls, CapPc.held, messages]

theorem Inv.drained_of_exited (h : Inv numOutputs es s done q) (hexit : s.out = .exited) :
    Drained s := by
  have hlast := h.last
  rw [hexit] at hlast
  obtain ⟨hrun, hq⟩ := hlast rfl
  obtain ⟨hcap, hin⟩ := h.stopped hrun
  exact ⟨hin, hcap, h.holds.empty_iff.mpr hq, by rw [hexit]; rfl⟩

end Pipeline

/-- The calls one output of one task received, oldest first. -/
def callsTo [DecidableEq τ] (user : τ) (output : ℕ) (sent : List (Sent τ)) : List OutputCall :=
  (sent.filter fun c => c.user = user ∧ c.output = output).map Sent.call

/-- **The pipeline delivers what run to completion delivers**: at every moment a first part of it,
and all of it once the ring is drained after the last push. The ring holds the messages pushed and
not popped, in order. Source: `task.c` `capture_to_ring_buffer`, `main.c` `output_thread_func`,
`ring_buffer.c` -/
theorem pipeline_refines_rtc [DecidableEq τ] (numOutputs : τ → ℕ) (size : ℕ) (hsize : 0 < size)
    (capacity : ℕ) (es : List (CaptureEvent τ)) (acts : List Pipeline.Act) (s : Pipeline.State τ)
    (hrun : exec (Pipeline.step numOutputs) (Pipeline.initial size hsize capacity es) acts
      = some s) :
    (∀ user output, callsTo user output s.sent <+:
        callsTo user output (rtcCalls numOutputs es)) ∧
      (Pipeline.Drained s → ∀ user output, callsTo user output s.sent =
        callsTo user output (rtcCalls numOutputs es)) ∧
      (s.out = .exited → Pipeline.Drained s) ∧
      (∃ q, s.ring.Holds q ∧ s.pushed = s.popped ++ q ∧ q.length ≤ size - 1) ∧
      s.pushed <+: messages es ∧ s.out ≠ .fault := by
  obtain ⟨done, q, h⟩ :=
    exec_invariant (P := fun s => ∃ done q, Pipeline.Inv numOutputs es s done q)
    Pipeline.inv_step ⟨[], [], Pipeline.inv_initial size hsize capacity⟩ hrun
  have hlen := exec_invariant (P := fun s => s.ring.size = size)
    (fun s a s' hs => Pipeline.step_size s a s' size hs) rfl hrun
  obtain ⟨hfirst, hall⟩ := h.sent_isPrefix
  refine ⟨?_, ?_, h.drained_of_exited, ⟨q, h.holds, h.fifo, ?_⟩, ?_, ?_⟩
  · intro user output
    exact (hfirst.filter _).map _
  · intro hd user output
    rw [hall hd]
  · have := h.holds.length_lt
    omega
  · rw [h.msgs, append_assoc]
    exact prefix_append _ _
  · intro hfault
    have hout := h.out
    rw [hfault] at hout
    exact hout

/-- Two frames of a task with two outputs and a heartbeat of another: both outputs get both, in
order. -/
theorem pipeline_refines_rtc_two_frames :
    let frame : Packet := ⟨⟨⟨1, 2⟩, 14, 60⟩, List.replicate 14 7, rfl⟩
    let frame' : Packet := ⟨⟨⟨3, 4⟩, 15, 15⟩, List.replicate 15 8, rfl⟩
    let es : List (CaptureEvent Bool) := [⟨false, .packet frame .incoming⟩, ⟨true, .heartbeat 5⟩,
      ⟨false, .packet frame' .outgoing⟩]
    let acts : List Pipeline.Act :=
      (List.replicate 27 [.capture false true, .output false]).flatten ++ [.stop] ++
        List.replicate 17 (.output false)
    ∃ s, exec (Pipeline.step fun _ => 2) (Pipeline.initial 3 (by decide) 200 es) acts = some s ∧
      s.out = .exited ∧ callsTo false 1 s.sent = callsTo false 1 (rtcCalls (fun _ => 2) es) ∧
      callsTo false 1 s.sent = [.sendPacket frame.hdr frame.data .incoming,
        .sendPacket frame'.hdr frame'.data .outgoing] := by
  intro frame frame' es acts
  have hrun : (exec (Pipeline.step fun _ => 2) (Pipeline.initial 3 (by decide) 200 es) acts).map
      (fun s => (s.out matches .exited, callsTo false 1 s.sent)) = some (true,
        [.sendPacket frame.hdr frame.data .incoming,
          .sendPacket frame'.hdr frame'.data .outgoing]) := by decide +kernel
  obtain ⟨s, hs, heq⟩ := map_eq_some_iff.mp hrun
  obtain ⟨hexited, hcalls⟩ := Prod.mk.inj heq
  have hout : s.out = .exited := by
    cases hpc : s.out with
    | exited => rfl
    | _ =>
      rw [hpc] at hexited
      cases hexited
  have h := pipeline_refines_rtc (fun _ : Bool => 2) 3 (by decide) 200 es acts s hs
  exact ⟨s, hs, hout, h.2.1 (h.2.2.1 hout) false 1, hcalls⟩

end CloudProbe.Worker
