import CloudProbe.Worker.PipelineRefines
import Mathlib.Algebra.Group.Action.Defs
import Mathlib.Algebra.Order.BigOperators.Group.List

/-!
# The memory of the pipeline

The allocator counts the bytes of the messages in `used`: the capture thread reserves with a
compare-and-swap before it calls `malloc`, the output thread gives back with a load and a separate
subtraction. So `used` is the bytes of the live messages and of what is in flight inside an
allocation or a release (`Accounted`).
-/

namespace CloudProbe.Worker

open CloudProbe.Lib List Option

variable {τ : Type*}

/-- The largest message: a packet with the largest captured length. -/
def maxMsgSize : ℕ := ringMsgSize + 4294967295

theorem CaptureEvent.size_toMsg (e : CaptureEvent τ) : e.toMsg.size = e.allocSize := by
  obtain ⟨user, captured⟩ := e
  cases captured <;> rfl

theorem RingMsg.size_le (m : RingMsg τ) : m.size ≤ maxMsgSize := by
  cases m with
  | packet user direction hdr data =>
    have hlt := hdr.caplen.toNat_lt
    show ringMsgSize + hdr.caplen.toNat ≤ ringMsgSize + 4294967295
    omega
  | heartbeat user ts =>
    show ringMsgSize ≤ ringMsgSize + 4294967295
    omega

theorem CaptureEvent.allocSize_le (e : CaptureEvent τ) : e.allocSize ≤ maxMsgSize := by
  rw [← e.size_toMsg]
  exact e.toMsg.size_le

theorem RingMsg.size_pos (m : RingMsg τ) : 0 < m.size := by
  cases m <;> simp [RingMsg.size, ringMsgSize]

theorem sum_size_le (l : List (RingMsg τ)) : (l.map RingMsg.size).sum ≤ l.length * maxMsgSize := by
  have h := sum_le_card_nsmul (l.map RingMsg.size) maxMsgSize
    (forall_mem_map.mpr fun m _ => m.size_le)
  rwa [length_map, smul_eq_mul] at h

namespace Pipeline

theorem ringSlots_pos : 0 < ringSlots := by decide

/-- The message that the capture thread has allocated and not pushed. -/
def CapPc.allocated : CapPc τ → List (RingMsg τ)
  | .loadHead m | .loadTail m _ | .writeSlot m _ | .storeHead m _ => [m]
  | _ => []

/-- The bytes the capture thread has reserved without a message. -/
def CapPc.reserved : CapPc τ → ℕ
  | .malloc e | .unreserve e => e.allocSize
  | _ => 0

/-- The message that the output thread has popped and not begun to free. -/
def OutPc.inHand : OutPc τ → List (RingMsg τ)
  | .send _ m _ | .freeLoad _ m => [m]
  | _ => []

/-- The bytes the output thread is about to give back. -/
def OutPc.freeing : OutPc τ → ℕ
  | .freeSub _ len => len
  | _ => 0

/-- The live messages: in the ring, in the hand of the output thread, or about to be pushed. -/
def State.live (s : State τ) : List (RingMsg τ) :=
  s.pushed.drop s.popped.length ++ s.out.inHand ++ s.cap.allocated

/-- Some message is in the ring or being processed. -/
def State.Occupied (s : State τ) : Prop := s.live ≠ [] ∨ 0 < s.out.freeing

/-- **The count of the allocator.** -/
structure Accounted (s : State τ) : Prop where
  used : s.used = (s.live.map RingMsg.size).sum + s.cap.reserved + s.out.freeing
  freeing : s.out.freeing ≤ maxMsgSize

def CapPc.bytes (p : CapPc τ) : ℕ := (p.allocated.map RingMsg.size).sum + p.reserved

def OutPc.bytes (p : OutPc τ) : ℕ := (p.inHand.map RingMsg.size).sum + p.freeing

variable {numOutputs : τ → ℕ} {es : List (CaptureEvent τ)} {s s' : State τ}
  {done q : List (RingMsg τ)}

theorem State.sum_live (s : State τ) :
    (s.live.map RingMsg.size).sum + s.cap.reserved + s.out.freeing =
      ((s.pushed.drop s.popped.length).map RingMsg.size).sum + s.out.bytes + s.cap.bytes := by
  simp only [State.live, map_append, sum_append, OutPc.bytes, CapPc.bytes]
  omega

/-- The sum of reserved bytes does not wrap. -/
theorem Accounted.used_add_lt (h : Accounted s) (hinv : Inv numOutputs es s done q)
    (hsize : s.ring.size = ringSlots) : s.used + maxMsgSize < 2 ^ 64 := by
  have hq : s.pushed.drop s.popped.length = q := by rw [hinv.fifo, drop_left]
  have hlen := hinv.holds.length_lt
  have hout : s.out.inHand.length ≤ 1 := by cases s.out <;> simp [OutPc.inHand]
  have hcap : s.cap.allocated.length ≤ 1 := by cases s.cap <;> simp [CapPc.allocated]
  have hlive : s.live.length ≤ ringSlots + 1 := by
    rw [State.live, length_append, length_append, hq]
    omega
  have hres : s.cap.reserved ≤ maxMsgSize := by
    cases s.cap with
    | malloc e | unreserve e => exact e.allocSize_le
    | _ => exact Nat.zero_le _
  have hsum := (sum_size_le s.live).trans (Nat.mul_le_mul_right maxMsgSize hlive)
  have hfreeing := h.freeing
  have hslots : ringSlots = 1048576 := rfl
  have hmax : maxMsgSize = 4294967343 := rfl
  rw [hslots, hmax] at hsum
  rw [h.used]
  omega

/-! ### Steps -/

theorem Accounted.capture (h : Accounted s) {i : List (CaptureEvent τ)} {p : CapPc τ} {u : ℕ}
    {ring : Queue (RingMsg τ)} (hu : u + s.cap.bytes = s.used + p.bytes) :
    Accounted { s with inputs := i, cap := p, used := u, ring := ring } := by
  refine ⟨?_, h.freeing⟩
  have hused := h.used
  rw [State.sum_live] at hused ⊢
  simp only
  omega

theorem Accounted.output (h : Accounted s) {p : OutPc τ} {u : ℕ} {sent : List (Sent τ)}
    (hu : u + s.out.bytes = s.used + p.bytes) (hp : p.freeing ≤ maxMsgSize) :
    Accounted { s with out := p, used := u, sent := sent } := by
  refine ⟨?_, hp⟩
  have hused := h.used
  rw [State.sum_live] at hused ⊢
  simp only
  omega

/-- **The step lemma** for the capture thread. -/
theorem accounted_captureStep {spurious mallocOk : Bool} (hinv : Inv numOutputs es s done q)
    (hsize : s.ring.size = ringSlots) (h : Accounted s)
    (hs : captureStep s spurious mallocOk = some s') : Accounted s' := by
  have hused := h.used
  rw [State.sum_live] at hused
  unfold captureStep at hs
  cases hcap : s.cap <;> simp only [hcap] at hs
  case idle =>
    cases hin : s.inputs with
    | nil => simp [hin] at hs
    | cons e rest =>
      rw [hin] at hs
      simp only at hs
      split_ifs at hs <;> cases hs
      · exact h.capture (by rw [hcap])
      · exact h.capture (by rw [hcap]; rfl)
  case loadCapacity | loadUsed | loadHead | writeSlot =>
    cases hs
    exact h.capture (by rw [hcap]; rfl)
  case reserve e cap old =>
    have hfits : s.used + e.allocSize < 2 ^ 64 :=
      (Nat.add_le_add_left e.allocSize_le _).trans_lt (h.used_add_lt hinv hsize)
    split_ifs at hs with htest hswap <;> cases hs
    · exact h.capture (by rw [hcap]; rfl)
    · rw [← hswap.1, Nat.mod_eq_of_lt hfits]
      exact h.capture (by rw [hcap]; simp [CapPc.bytes, CapPc.allocated, CapPc.reserved])
    · exact h.capture (by rw [hcap]; rfl)
  case malloc e =>
    split_ifs at hs with hok <;> cases hs
    · refine h.capture ?_
      rw [hcap]
      simp [CapPc.bytes, CapPc.allocated, CapPc.reserved, e.size_toMsg]
    · exact h.capture (by rw [hcap]; rfl)
  case unreserve e =>
    cases hs
    have hfits := h.used_add_lt hinv hsize
    refine h.capture ?_
    simp only [hcap, CapPc.bytes, CapPc.allocated, CapPc.reserved, map_nil, sum_nil]
      at hused ⊢
    omega
  case loadTail m head =>
    split_ifs at hs
    all_goals
      cases hs
      exact h.capture (by rw [hcap]; rfl)
  case storeHead m head =>
    cases hs
    refine ⟨?_, h.freeing⟩
    rw [State.sum_live]
    simp only [hinv.fifo, append_assoc, drop_left, map_append, sum_append,
      hcap, CapPc.bytes, CapPc.allocated, CapPc.reserved, map_nil, sum_nil]
      at hused ⊢
    omega

theorem bytes_continue (k : PopFor) : (k.continue : OutPc τ).bytes = 0 := by
  cases k <;> rfl

theorem bytes_afterDrain (last : Bool) : (afterDrain last : OutPc τ).bytes = 0 := by
  cases last <;> rfl

theorem bytes_onEmpty (k : PopFor) : (k.onEmpty : OutPc τ).bytes = 0 := by
  cases k with
  | mainLoop => rfl
  | drain last left => exact bytes_afterDrain last

theorem Accounted.output_zero (h : Accounted s) {p : OutPc τ} (hs : s.out.bytes = 0)
    (hp : p.bytes = 0) : Accounted { s with out := p } := by
  refine h.output (by rw [hs, hp]) ?_
  rw [OutPc.bytes] at hp
  omega

/-- **The step lemma** for the output thread. -/
theorem accounted_outputStep {request : Bool} (hinv : Inv numOutputs es s done q) (h : Accounted s)
    (hfits : s.used < 2 ^ 64) (hs : outputStep numOutputs s request = some s') : Accounted s' := by
  have hused := h.used
  rw [State.sum_live] at hused
  have hout := hinv.out
  unfold outputStep at hs
  cases hpc : s.out <;> simp only [hpc] at hs
  case loop | request =>
    cases hs
    exact h.output_zero (by rw [hpc]; rfl) (by split <;> rfl)
  case usedHead | usedTail | popHead =>
    cases hs
    exact h.output_zero (by rw [hpc]; rfl) rfl
  case drainLoop last left =>
    cases left <;> simp only [some.injEq] at hs <;> subst hs
    · exact h.output_zero (by rw [hpc]; rfl) (bytes_afterDrain last)
    · exact h.output_zero (by rw [hpc]; rfl) rfl
  case popTail k head =>
    split_ifs at hs <;> cases hs
    · exact h.output_zero (by rw [hpc]; rfl) (bytes_onEmpty k)
    · exact h.output_zero (by rw [hpc]; rfl) rfl
  case popRead k tail =>
    split at hs
    all_goals
      cases hs
      exact h.output_zero (by rw [hpc]; rfl) rfl
  case popStore k tail m =>
    cases hs
    rw [hpc] at hout
    obtain ⟨q', rfl⟩ := List.head?_eq_some_iff.mp hout.2
    refine ⟨?_, Nat.zero_le _⟩
    have hdrop : (s.popped ++ m :: q').drop (s.popped ++ [m]).length = q' := by
      rw [append_cons s.popped m q', drop_left]
    rw [State.sum_live]
    simp only [hinv.fifo, hdrop, drop_left, map_cons, sum_cons, hpc, OutPc.bytes,
      OutPc.inHand, OutPc.freeing, map_nil, sum_nil] at hused ⊢
    omega
  case send k m i =>
    split at hs
    all_goals
      cases hs
      exact h.output (by rw [hpc]; rfl) (Nat.zero_le _)
  case freeLoad k m =>
    cases hs
    simp only [hpc, OutPc.bytes, OutPc.inHand, OutPc.freeing, map_cons, sum_cons,
      map_nil, sum_nil] at hused
    -- the message is counted, so there is at least its size
    rw [Nat.min_eq_left (by omega)]
    refine h.output ?_ m.size_le
    rw [hpc]
    simp [OutPc.bytes, OutPc.inHand, OutPc.freeing]
  case freeSub k len =>
    cases hs
    have hzero := bytes_continue (τ := τ) k
    simp only [hpc, OutPc.bytes, OutPc.inHand, OutPc.freeing, map_nil, sum_nil] at hused
    refine h.output ?_ ?_
    · rw [hzero, hpc]
      simp only [OutPc.bytes, OutPc.inHand, OutPc.freeing, map_nil, sum_nil]
      omega
    · rw [OutPc.bytes] at hzero
      omega
  case exited | fault => cases hs

/-! ### Runs -/

theorem Accounted.initial (capacity : ℕ) :
    Accounted (initial ringSlots ringSlots_pos capacity es) := by
  constructor
  · rfl
  · exact Nat.zero_le _

/-- The states of the runs on the input `es`, with the worker's ring. -/
abbrev Reached (numOutputs : τ → ℕ) (capacity : ℕ) (es : List (CaptureEvent τ)) : Type _ :=
  { s : State τ // ∃ acts,
    exec (step numOutputs) (initial ringSlots ringSlots_pos capacity es) acts = some s }

/-- **The run lemma** for both threads. -/
theorem Reached.accounted {capacity : ℕ} (s : Reached numOutputs capacity es) :
    (∃ done q, Inv numOutputs es s.1 done q) ∧ s.1.ring.size = ringSlots ∧ Accounted s.1 := by
  obtain ⟨s, acts, hrun⟩ := s
  refine exec_invariant (P := fun s => (∃ done q, Inv numOutputs es s done q) ∧
    s.ring.size = ringSlots ∧ Accounted s) ?_
    ⟨⟨[], [], inv_initial ringSlots ringSlots_pos capacity⟩, rfl, .initial capacity⟩ hrun
  rintro s a s' ⟨hinv, hsize, h⟩ hs
  refine ⟨inv_step s a s' hinv hs, step_size s a s' ringSlots hsize hs, ?_⟩
  obtain ⟨done, q, hinv⟩ := hinv
  cases a with
  | capture spurious mallocOk => exact accounted_captureStep hinv hsize h hs
  | resize n | stop =>
    simp only [step] at hs
    split at hs <;> cases hs
    exact ⟨h.used, h.freeing⟩
  | output request =>
    have hfits := h.used_add_lt hinv hsize
    exact accounted_outputStep hinv h (by omega) hs

/-- **What the allocator guarantees** in a state of the pipeline. -/
structure MemoryKept (s : State τ) : Prop where
  /-- outside an allocation and a release nothing is reserved, and nothing is being given back -/
  used : s.used = (s.live.map RingMsg.size).sum + s.cap.reserved + s.out.freeing
  clamp : ∀ k m, s.out = .freeLoad k m → m.size ≤ s.used
  fits : s.used < 2 ^ 64
  unreserve : ∀ e, s.cap = .unreserve e → e.allocSize ≤ s.used
  free : ∀ k len, s.out = .freeSub k len → len ≤ s.used
  success : ∀ e cap old spurious mallocOk s', s.cap = .reserve e cap old →
    captureStep s spurious mallocOk = some s' → s'.cap = .malloc e →
      s'.used = s.used + e.allocSize ∧ s.used + e.allocSize ≤ cap
  occupied : s.cap.reserved = 0 → (s.Occupied ↔ s.used ≠ 0)
  refusal : ∀ e cap old, s.cap = .reserve e cap old → e.allocSize ≤ cap →
    cap < (old + e.allocSize) % 2 ^ 64 → s.used = old → s.Occupied

theorem Accounted.occupied_iff (h : Accounted s) (hres : s.cap.reserved = 0) :
    s.Occupied ↔ s.used ≠ 0 := by
  rw [h.used, hres, State.Occupied]
  rcases hlive : s.live with _ | ⟨m, rest⟩
  · simp [Nat.pos_iff_ne_zero]
  · have := m.size_pos
    simp only [map_cons, sum_cons, ne_eq, reduceCtorEq, not_false_eq_true, true_or, true_iff]
    omega

/-- **The memory of the pipeline is accounted for**, in every interleaving of the two threads.
Source: `ring_buffer.c` `simple_alloc_packet`, `simple_msg_free`, `simple_allocator_resize` -/
theorem pipeline_memory (numOutputs : τ → ℕ) (capacity : ℕ) (es : List (CaptureEvent τ))
    (s : Reached numOutputs capacity es) : MemoryKept s.1 := by
  obtain ⟨⟨done, q, hinv⟩, hsize, h⟩ := s.accounted
  generalize s.1 = s at hinv hsize h ⊢
  have hfits := h.used_add_lt hinv hsize
  have hused := h.used
  rw [State.sum_live] at hused
  constructor
  case used => exact h.used
  case clamp =>
    intro k m hpc
    simp only [hpc, OutPc.bytes, OutPc.inHand, map_cons, sum_cons] at hused
    omega
  case fits =>
    omega
  case unreserve =>
    intro e hpc
    simp only [hpc, CapPc.bytes, CapPc.reserved] at hused
    omega
  case free =>
    intro k len hpc
    simp only [hpc, OutPc.bytes, OutPc.freeing] at hused
    omega
  case success =>
    intro e cap old spurious mallocOk s' hpc hs hcap
    have he := (Nat.add_le_add_left e.allocSize_le s.used).trans_lt hfits
    simp only [captureStep, hpc] at hs
    split_ifs at hs with htest hswap
    · cases hs
      cases hcap
    · cases hs
      rw [← hswap.1, Nat.mod_eq_of_lt he] at htest ⊢
      exact ⟨rfl, by omega⟩
    · cases hs
      cases hcap
  case occupied => exact h.occupied_iff
  case refusal =>
    intro e cap old hpc hle hrefused hold
    rw [h.occupied_iff (by rw [hpc]; rfl), hold]
    rintro rfl
    have := Nat.mod_le (0 + e.allocSize) (2 ^ 64)
    omega

def beat : CaptureEvent Unit := ⟨(), .heartbeat 0⟩

/-- Two heartbeats and room for one: the second reads `used`, the first is freed, and the second is
refused all the same. -/
theorem refused_by_stale_used :
    ∃ s : Reached (fun _ => 0) 60 [beat, beat], s.1.cap = .reserve beat 60 48 ∧
      beat.allocSize ≤ 60 ∧ 60 < (48 + beat.allocSize) % 2 ^ 64 ∧
      (captureStep s.1 false true).map State.cap = some (.loadCapacity beat) ∧
      ¬ s.1.Occupied := by
  refine ⟨⟨_, List.replicate 12 (.capture false true) ++ List.replicate 9 (.output false), rfl⟩,
    rfl, by decide, by decide, rfl, ?_⟩
  rintro (hlive | hfreeing)
  · exact hlive rfl
  · exact absurd hfreeing (Nat.lt_irrefl 0)

end Pipeline

end CloudProbe.Worker
