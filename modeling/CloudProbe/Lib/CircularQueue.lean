import Mathlib.Data.List.DropRight
import Mathlib.Data.Nat.ModEq
import Mathlib.Tactic.Ring
import Mathlib.Tactic.Common

/-!
# A queue in a circular buffer

A buffer of `size` slots and two indices: `head`, the slot the next element goes to, and `tail`, the
slot the oldest element is in. One slot stays free, so `head = tail` means empty. `Queue.Holds c q`
says that the memory `c` represents the list `q`, oldest first.

* `Holds.push`, `Holds.pop`, `Holds.put`: the operations; storing into a full queue drops its oldest
  element.
* `Holds.full_iff`, `Holds.empty_iff`, `Holds.getElem_tail`: the index tests and a read at `tail`.
* `Holds.between`: an index read earlier, behind `head`, delimits a part of `q` from its oldest end.
* `Holds.walk`: reading the slots from `tail` up to `head` gives `q`.
-/

namespace CloudProbe.Lib

open List

/-- The memory of a queue of `size` slots. A slot never written is `none`. -/
structure Queue (α : Type*) where
  size : ℕ
  buf : ℕ → Option α
  head : ℕ
  tail : ℕ
  size_pos : 0 < size

namespace Queue

variable {α : Type*}

def next (c : Queue α) (i : ℕ) : ℕ := (i + 1) % c.size

def write (c : Queue α) (i : ℕ) (x : α) : Queue α :=
  { c with buf := fun j => if j = i then some x else c.buf j }

def setHead (c : Queue α) (i : ℕ) : Queue α := { c with head := i }

def setTail (c : Queue α) (i : ℕ) : Queue α := { c with tail := i }

/-- The memory `c` represents `q`, oldest first: the slots from `tail` on hold `q` and `head` is the
slot after its last element. -/
structure Holds (c : Queue α) (q : List α) : Prop where
  tail_lt : c.tail < c.size
  length_lt : q.length < c.size
  head_eq : c.head = (c.tail + q.length) % c.size
  slot : ∀ i (hi : i < q.length), c.buf ((c.tail + i) % c.size) = some q[i]

theorem offset_inj {n t i j : ℕ} (hi : i < n) (hj : j < n)
    (h : (t + i) % n = (t + j) % n) : i = j := by
  have h' : i ≡ j [MOD n] := Nat.ModEq.add_left_cancel' t h
  rwa [Nat.ModEq, Nat.mod_eq_of_lt hi, Nat.mod_eq_of_lt hj] at h'

theorem holds_nil {c : Queue α} (hh : c.head = 0) (ht : c.tail = 0) : Holds c [] where
  tail_lt := ht ▸ c.size_pos
  length_lt := c.size_pos
  head_eq := by simp [hh, ht]
  slot := by intro i hi; exact absurd hi (Nat.not_lt_zero i)

variable {c : Queue α} {q : List α}

theorem Holds.offset_eq_head_iff (h : Holds c q) {k : ℕ} (hk : k ≤ q.length) :
    (c.tail + k) % c.size = c.head ↔ k = q.length := by
  constructor
  · intro hkh
    rw [h.head_eq] at hkh
    exact offset_inj (lt_of_le_of_lt hk h.length_lt) h.length_lt hkh
  · rintro rfl
    exact h.head_eq.symm

theorem Holds.empty_iff (h : Holds c q) : c.tail = c.head ↔ q = [] := by
  have h0 := h.offset_eq_head_iff (Nat.zero_le q.length)
  rw [Nat.add_zero, Nat.mod_eq_of_lt h.tail_lt] at h0
  rw [h0, eq_comm, length_eq_zero_iff]

/-- The queue is full when one slot is left. -/
theorem Holds.full_iff (h : Holds c q) : c.next c.head = c.tail ↔ q.length + 1 = c.size := by
  have hnext : c.next c.head = (c.tail + (q.length + 1)) % c.size := by
    rw [next, h.head_eq, Nat.mod_add_mod, Nat.add_assoc]
  rw [hnext]
  rcases Nat.lt_or_ge (q.length + 1) c.size with hlt | hge
  · constructor
    · intro heq
      have h0 : (c.tail + (q.length + 1)) % c.size = (c.tail + 0) % c.size := by
        rw [heq, Nat.add_zero, Nat.mod_eq_of_lt h.tail_lt]
      have := offset_inj hlt c.size_pos h0
      omega
    · intro heq
      omega
  · have hsz : q.length + 1 = c.size := by
      have := h.length_lt
      omega
    rw [hsz, Nat.add_mod_right, Nat.mod_eq_of_lt h.tail_lt]
    simp

theorem Holds.getElem_tail {x : α} (h : Holds c (x :: q)) : c.buf c.tail = some x := by
  have h0 := h.slot 0 (by simp)
  rwa [Nat.add_zero, Nat.mod_eq_of_lt h.tail_lt] at h0

theorem Holds.write_head (h : Holds c q) (x : α) : Holds (c.write c.head x) q where
  tail_lt := h.tail_lt
  length_lt := h.length_lt
  head_eq := h.head_eq
  slot := by
    intro i hi
    have hne : (c.tail + i) % c.size ≠ c.head := by
      rw [Ne, h.offset_eq_head_iff hi.le]
      exact hi.ne
    simp only [write]
    rw [if_neg hne]
    exact h.slot i hi

/-- **Push.** With `x` in the slot at `head` and a slot to spare, advancing `head` appends `x`. -/
theorem Holds.push {x : α} (h : Holds c q) (hx : c.buf c.head = some x)
    (hsp : q.length + 1 < c.size) : Holds (c.setHead (c.next c.head)) (q ++ [x]) where
  tail_lt := h.tail_lt
  length_lt := by simpa [setHead] using hsp
  head_eq := by
    simp only [setHead, next, length_append, length_singleton]
    rw [h.head_eq, Nat.mod_add_mod, Nat.add_assoc]
  slot := by
    intro i hi
    simp only [setHead]
    rw [length_append, length_singleton] at hi
    rcases Nat.lt_or_ge i q.length with hlt | hge
    · rw [h.slot i hlt, getElem_append_left hlt]
    · have hi' : i = q.length := by omega
      subst hi'
      rw [← h.head_eq, hx]
      simp

theorem Holds.pop {x : α} (h : Holds c (x :: q)) : Holds (c.setTail (c.next c.tail)) q where
  tail_lt := Nat.mod_lt _ c.size_pos
  length_lt := by
    have := h.length_lt
    simp only [length_cons] at this
    simp only [setTail]
    omega
  head_eq := by
    simp only [setTail, next]
    rw [h.head_eq, length_cons, Nat.mod_add_mod]
    congr 1
    ring
  slot := by
    intro i hi
    have hslot := h.slot (i + 1) (by simpa using hi)
    simp only [setTail, next]
    rw [Nat.mod_add_mod, Nat.add_assoc, Nat.add_comm 1 i, hslot]
    simp

theorem Holds.between (h : Holds c q) {k : ℕ} (hk : k ≤ q.length) (i : ℕ)
    (hi : i = (c.tail + k) % c.size) : c.tail = i ↔ k = 0 := by
  have hk' : k < c.size := lt_of_le_of_lt hk h.length_lt
  constructor
  · intro heq
    have h0 : (c.tail + k) % c.size = (c.tail + 0) % c.size := by
      rw [← hi, ← heq, Nat.add_zero, Nat.mod_eq_of_lt h.tail_lt]
    exact offset_inj hk' c.size_pos h0
  · rintro rfl
    rw [hi, Nat.add_zero, Nat.mod_eq_of_lt h.tail_lt]

theorem Holds.distance (h : Holds c q) {k : ℕ} (hk : k ≤ q.length) (i : ℕ)
    (hi : i = (c.tail + k) % c.size) :
    (if c.tail ≤ i then i - c.tail else c.size - c.tail + i) = k := by
  have hk' : k < c.size := lt_of_le_of_lt hk h.length_lt
  have ht := h.tail_lt
  rcases Nat.lt_or_ge (c.tail + k) c.size with hlt | hge
  · rw [Nat.mod_eq_of_lt hlt] at hi
    rw [if_pos (by omega)]
    omega
  · rw [Nat.mod_eq_sub_mod hge, Nat.mod_eq_of_lt (by omega)] at hi
    rw [if_neg (by omega)]
    omega

/-! ## A queue that overwrites its oldest element -/

/-- Storing an element whether or not a slot is left: when `head` comes round to `tail`, the oldest
element is given up. -/
def put (c : Queue α) (x : α) : Queue α :=
  let c' := (c.write c.head x).setHead (c.next c.head)
  if c'.head = c'.tail then c'.setTail (c'.next c'.tail) else c'

theorem rtake_rtake_concat (l : List α) (n : ℕ) (x : α) :
    (l.rtake n ++ [x]).rtake n = (l ++ [x]).rtake n := by
  cases n with
  | zero => simp
  | succ n =>
    rw [rtake_concat_succ, rtake_concat_succ]
    simp only [rtake_eq_reverse_take_reverse, reverse_reverse, take_take]
    rw [Nat.min_eq_left (Nat.le_succ n)]

/-- **Put.** The queue keeps the newest elements, one fewer than it has slots. -/
theorem Holds.put (h : Holds c q) (hsize : 2 ≤ c.size) (x : α) :
    Holds (c.put x) ((q ++ [x]).rtake (c.size - 1)) := by
  have hlen := h.length_lt
  by_cases hfull : c.next c.head = c.tail
  · have hq : q.length + 1 = c.size := h.full_iff.mp hfull
    obtain ⟨y, q', rfl⟩ : ∃ y q', q = y :: q' := by
      cases q with
      | nil => simp at hq; omega
      | cons y q' => exact ⟨y, q', rfl⟩
    -- Giving up the oldest element first leaves room for a push; the order does not show.
    have hput : c.put x = ((c.setTail (c.next c.tail)).write c.head x).setHead (c.next c.head) :=
      if_pos hfull
    have hkept : ((y :: q') ++ [x]).rtake (c.size - 1) = q' ++ [x] := by
      rw [List.rtake, length_append, length_singleton, ← hq,
        show (y :: q').length + 1 - ((y :: q').length + 1 - 1) = 1 by omega]
      rfl
    rw [hput, hkept]
    refine ((h.pop.write_head x).push ?_ ?_)
    · simp [write, setTail]
    · simp only [length_cons] at hq
      simp only [write, setTail]
      omega
  · have hroom : q.length + 1 < c.size := by
      have hne : q.length + 1 ≠ c.size := fun heq => hfull (h.full_iff.mpr heq)
      omega
    have hput : c.put x = (c.write c.head x).setHead (c.next c.head) := if_neg hfull
    have hkept : (q ++ [x]).rtake (c.size - 1) = q ++ [x] := by
      rw [List.rtake, length_append, length_singleton,
        show q.length + 1 - (c.size - 1) = 0 by omega, drop_zero]
    rw [hput, hkept]
    exact (h.write_head x).push (by simp [write]) hroom

/-- The slots read from index `i` on until the index is `head`, `none` when a slot was never written
or `fuel` steps do not reach it. -/
def walk (c : Queue α) : ℕ → ℕ → Option (List α)
  | 0, i => if i = c.head then some [] else none
  | fuel + 1, i =>
    if i = c.head then some []
    else (c.buf i).bind fun x => (walk c fuel (c.next i)).map (x :: ·)

theorem walk_setTail (c : Queue α) (t fuel i : ℕ) : (c.setTail t).walk fuel i = c.walk fuel i := by
  induction fuel generalizing i with
  | zero => rfl
  | succ fuel ih =>
    simp only [walk, ih]
    rfl

/-- Walking from `tail` reads the queue. -/
theorem Holds.walk (h : Holds c q) {fuel : ℕ} (hfuel : q.length ≤ fuel) :
    c.walk fuel c.tail = some q := by
  induction q generalizing c fuel with
  | nil =>
    have hend : c.tail = c.head := h.empty_iff.mpr rfl
    cases fuel <;> simp [Queue.walk, hend]
  | cons x q ih =>
    have hne : c.tail ≠ c.head := fun heq => by simpa using h.empty_iff.mp heq
    obtain ⟨fuel, rfl⟩ : ∃ k, fuel = k + 1 := ⟨fuel - 1, by simp at hfuel; omega⟩
    have hrest : (c.setTail (c.next c.tail)).walk fuel (c.next c.tail) = some q :=
      ih h.pop (by simpa using hfuel)
    rw [walk_setTail] at hrest
    rw [Queue.walk, if_neg hne, h.getElem_tail, Option.bind_some, hrest, Option.map_some]

end Queue

end CloudProbe.Lib
