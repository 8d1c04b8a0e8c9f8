import CloudProbe.Lib.Runs
import CloudProbe.Lib.Spans

/-!
# The memory pool

The ring-buffer memory pool of `ring_buffer.c`. Pointers are offsets into the pool. An offset plus a
size is at most twice the capacity, and a block that `malloc` returns is at most half the address
space, so the sums of `size_t` are those of the numbers.

* **Layout** (`Layout`): the live allocations lie one behind the other from `tail` to `head`, or
  from `tail` to `limit` and from 0 to `head`.
* **One call** (`Layout.alloc`, `Layout.free`) keeps the layout, with two exceptions
  (`PoolCall.Safe`). An allocation that ends at the capacity while `tail` is 0 moves `head` onto
  `tail`. And one that wraps in an empty pool leaves `tail` on `limit`, where no allocation will
  ever end.
-/

namespace CloudProbe.Worker

open Lib Option

/-- Source: `ring_buffer.c` `struct Mempool` -/
structure Mempool where
  capacity : ℕ
  head : ℕ
  tail : ℕ
  limit : ℕ
deriving DecidableEq

/-- Source: `ring_buffer.c` `mempool_create` -/
def mempoolCreate (capacity : ℕ) : Mempool := ⟨capacity, 0, 0, capacity⟩

/-- The pointer, or `NULL`, and the pool afterwards; `none` when the assertion fails.
Source: `ring_buffer.c` `mempool_alloc` -/
def mempoolAlloc (mp : Mempool) (size : ℕ) : Option (Option ℕ × Mempool) :=
  if 0 < size then
    if mp.tail ≤ mp.head then
      if size ≤ mp.capacity - mp.head then
        let newHead := mp.head + size
        some (some mp.head, { mp with head := if newHead = mp.capacity then 0 else newHead })
      else if mp.tail ≤ size then some (none, mp)
      else some (some 0, { mp with limit := mp.head, head := size })
    else if mp.tail - mp.head - 1 < size then some (none, mp)
    else some (some mp.head, { mp with head := mp.head + size })
  else none

/-- The pool afterwards; `none` when an assertion fails.
Source: `ring_buffer.c` `mempool_free` -/
def mempoolFree (mp : Mempool) (size : ℕ) : Option Mempool :=
  if 0 < size then
    let newTail := mp.tail + size
    if mp.limit ≠ mp.capacity then
      if mp.limit ≤ newTail then
        if newTail = mp.limit then some { mp with tail := 0, limit := mp.capacity } else none
      else some { mp with tail := newTail }
    else if mp.capacity ≤ newTail then
      if newTail = mp.capacity then some { mp with tail := 0 } else none
    else some { mp with tail := newTail }
  else none

/-! ## Calls in FIFO order -/

/-- A pool and its live allocations, the oldest first. -/
structure PoolState where
  pool : Mempool
  live : List Span
deriving DecidableEq

/-- A call of the pool; `free` releases the oldest allocation, with its size. -/
inductive PoolCall where
  | alloc (size : ℕ)
  | free

/-- A call; `none` when an assertion fails, or when there is nothing to free. -/
def PoolState.call (s : PoolState) : PoolCall → Option PoolState
  | .alloc size =>
    (mempoolAlloc s.pool size).map fun r =>
      ⟨r.2, s.live ++ (r.1.map fun ptr => ⟨ptr, size⟩).toList⟩
  | .free =>
    match s.live with
    | [] => none
    | x :: rest => (mempoolFree s.pool x.size).map fun pool => ⟨pool, rest⟩

def PoolState.new (capacity : ℕ) : PoolState := ⟨mempoolCreate capacity, []⟩

/-- What the pool promises: the live allocations are disjoint and inside the pool, `head` and
`tail` meet exactly when there is none, and the oldest one can be freed. -/
structure PoolState.Sound (capacity : ℕ) (s : PoolState) : Prop where
  disjoint : s.live.Pairwise fun x y => Disjoint x.cells y.cells
  inside : ∀ x ∈ s.live, x.cells ⊆ Set.Ico 0 capacity
  empty_iff : s.pool.head = s.pool.tail ↔ s.live = []
  free_ok : s.live ≠ [] → (s.call .free).isSome

/-- The allocation ends at the capacity while `tail` is 0. -/
def Mempool.FillsUp (mp : Mempool) (size : ℕ) : Prop :=
  0 < size ∧ mp.tail = 0 ∧ mp.head + size = mp.capacity

/-- The allocation goes back to offset 0 while the pool is empty. -/
def Mempool.WrapsEmpty (mp : Mempool) (size : ℕ) : Prop :=
  0 < size ∧ mp.head = mp.tail ∧ mp.capacity < mp.head + size ∧ size < mp.tail

def PoolCall.Safe (s : PoolState) : PoolCall → Prop
  | .alloc size => ¬ s.pool.FillsUp size ∧ ¬ s.pool.WrapsEmpty size
  | .free => True

/-! ## The layout -/

/-- Where the live allocations are: one region, or two with a gap between `head` and `tail`. -/
inductive Layout (capacity : ℕ) (s : PoolState) : Prop where
  | straight (hcap : s.pool.capacity = capacity) (hlimit : s.pool.limit = capacity)
      (hhead : s.pool.head = 0 ∨ s.pool.head < capacity)
      (htiles : Tiles s.pool.tail s.live s.pool.head)
  | wrapped (old new : List Span) (hcap : s.pool.capacity = capacity) (hlive : s.live = old ++ new)
      (hlimit : s.pool.limit ≤ capacity) (hgap : s.pool.head < s.pool.tail)
      (hold : s.pool.tail < s.pool.limit) (htiles : Tiles s.pool.tail old s.pool.limit)
      (htiles' : Tiles 0 new s.pool.head)

variable {capacity size : ℕ} {s s' : PoolState}

theorem layout_new (capacity : ℕ) : Layout capacity (.new capacity) :=
  .straight rfl rfl (.inl rfl) rfl

/-- What a call of `mempool_alloc` does, by where the allocation goes. -/
inductive Allocated (s : PoolState) (size : ℕ) : PoolState → Prop where
  | refused : Allocated s size s
  | fits (hle : s.pool.tail ≤ s.pool.head) (hroom : s.pool.head + size < s.pool.capacity) :
      Allocated s size
        ⟨{ s.pool with head := s.pool.head + size }, s.live ++ [⟨s.pool.head, size⟩]⟩
  | fitsExactly (hle : s.pool.tail ≤ s.pool.head) (hroom : s.pool.head + size = s.pool.capacity) :
      Allocated s size ⟨{ s.pool with head := 0 }, s.live ++ [⟨s.pool.head, size⟩]⟩
  | wraps (hle : s.pool.tail ≤ s.pool.head) (hroom : s.pool.capacity < s.pool.head + size)
      (hfront : size < s.pool.tail) :
      Allocated s size ⟨{ s.pool with limit := s.pool.head, head := size }, s.live ++ [⟨0, size⟩]⟩
  | between (hroom : s.pool.head + size < s.pool.tail) :
      Allocated s size
        ⟨{ s.pool with head := s.pool.head + size }, s.live ++ [⟨s.pool.head, size⟩]⟩

/-- The places an allocation can take. -/
theorem call_alloc (h : s.call (.alloc size) = some s') : 0 < size ∧ Allocated s size s' := by
  obtain ⟨r, hr, rfl⟩ := map_eq_some_iff.mp h
  have hrefused : Allocated s size ⟨s.pool, s.live ++ []⟩ := by
    rw [List.append_nil]
    exact .refused
  unfold mempoolAlloc at hr
  simp only at hr
  split_ifs at hr with hpos hle hroom hend hfront hgap
  · obtain rfl := some.inj hr
    exact ⟨hpos, .fitsExactly hle hend⟩
  · obtain rfl := some.inj hr
    exact ⟨hpos, .fits hle (by omega)⟩
  · obtain rfl := some.inj hr
    exact ⟨hpos, hrefused⟩
  · obtain rfl := some.inj hr
    exact ⟨hpos, .wraps hle (by omega) (by omega)⟩
  · obtain rfl := some.inj hr
    exact ⟨hpos, hrefused⟩
  · obtain rfl := some.inj hr
    exact ⟨hpos, .between (by omega)⟩

/-- An allocation that is safe keeps the layout. -/
theorem Layout.alloc (h : Layout capacity s) (hs : s.call (.alloc size) = some s')
    (hsafe : PoolCall.Safe s (.alloc size)) : Layout capacity s' := by
  obtain ⟨hpos, hs⟩ := call_alloc hs
  obtain ⟨hfull, hempty⟩ := hsafe
  rcases h with ⟨hcap, hlimit, hhead, htiles⟩ |
    ⟨old, new, hcap, hlive, hlimit, hgap, hold, htiles, htiles'⟩
  · rcases hs with _ | ⟨hle, hroom⟩ | ⟨hle, hroom⟩ | ⟨hle, hroom, hfront⟩ | hroom
    · exact .straight hcap hlimit hhead htiles
    · exact .straight hcap hlimit (.inr (hcap ▸ hroom)) (htiles.append (.single hpos))
    · -- `head` goes on from offset 0, which is behind `tail` unless the pool is filled up
      have htail : 0 < s.pool.tail := by
        by_contra hzero
        exact hfull ⟨hpos, by omega, hroom⟩
      have hend : s.pool.limit = s.pool.head + size := by omega
      refine .wrapped (s.live ++ [⟨s.pool.head, size⟩]) [] hcap (List.append_nil _).symm ?_ htail ?_
        ?_ rfl
      · exact Nat.le_of_eq hlimit
      · show s.pool.tail < s.pool.limit
        omega
      · show Tiles s.pool.tail _ s.pool.limit
        rw [hend]
        exact htiles.append (.single hpos)
    · -- the data before `limit` is what was live, so `tail` can get there
      have hdata : s.pool.tail < s.pool.head := by
        by_contra hge
        exact hempty ⟨hpos, by omega, hroom, hfront⟩
      refine .wrapped s.live [⟨0, size⟩] hcap rfl ?_ hfront hdata htiles ⟨rfl, hpos, Nat.zero_add _⟩
      show s.pool.head ≤ capacity
      omega
    · have := htiles.le
      omega
  · rcases hs with _ | ⟨hle, hroom⟩ | ⟨hle, hroom⟩ | ⟨hle, hroom, hfront⟩ | hroom
    · exact .wrapped old new hcap hlive hlimit hgap hold htiles htiles'
    · omega
    · omega
    · omega
    · refine .wrapped old (new ++ [⟨s.pool.head, size⟩]) hcap ?_ hlimit hroom hold htiles
        (htiles'.append (.single hpos))
      rw [hlive, List.append_assoc]

theorem mempoolFree_of_lt {mp : Mempool} (hpos : 0 < size) (hlt : mp.tail + size < mp.limit) :
    mempoolFree mp size = some { mp with tail := mp.tail + size } := by
  unfold mempoolFree
  simp only
  rw [if_pos hpos]
  by_cases hlimit : mp.limit = mp.capacity
  · rw [if_neg (not_not.mpr hlimit), if_neg (by omega)]
  · rw [if_pos hlimit, if_neg (by omega)]

theorem mempoolFree_of_eq {mp : Mempool} (hpos : 0 < size) (heq : mp.tail + size = mp.limit) :
    mempoolFree mp size = some { mp with tail := 0, limit := mp.capacity } := by
  unfold mempoolFree
  simp only
  rw [if_pos hpos, heq]
  by_cases hlimit : mp.limit = mp.capacity
  · rw [if_neg (not_not.mpr hlimit), if_pos hlimit.ge, if_pos hlimit, hlimit]
  · rw [if_pos hlimit, if_pos le_rfl, if_pos rfl]

/-- Freeing the oldest allocation keeps the layout. -/
theorem Layout.free (h : Layout capacity s) (hne : s.live ≠ []) :
    ∃ s', s.call .free = some s' ∧ Layout capacity s' := by
  obtain ⟨x, rest, hlive⟩ := List.exists_cons_of_ne_nil hne
  have hcall {pool : Mempool} (hfree : mempoolFree s.pool x.size = some pool) :
      s.call .free = some ⟨pool, rest⟩ := by
    unfold PoolState.call
    rw [hlive]
    simp only
    rw [hfree, map_some]
  rcases h with ⟨hcap, hlimit, hhead, htiles⟩ |
    ⟨old, new, hcap, hlive', hlimit, hgap, hold, htiles, htiles'⟩
  · rw [hlive] at htiles
    obtain ⟨-, hpos, htiles⟩ := htiles
    have hend := htiles.le
    exact ⟨_, hcall (mempoolFree_of_lt hpos (by omega)),
      .straight hcap hlimit hhead htiles⟩
  · cases old with
    | nil => exact absurd htiles (by simp only [Tiles]; omega)
    | cons y old =>
      rw [hlive, List.cons_append] at hlive'
      obtain ⟨rfl, rfl⟩ := List.cons.inj hlive'
      obtain ⟨-, hpos, htiles⟩ := htiles
      by_cases hend : s.pool.tail + x.size = s.pool.limit
      · -- the last allocation before `limit`: go on from offset 0
        obtain rfl := htiles.eq_nil_iff.mpr hend
        exact ⟨_, hcall (mempoolFree_of_eq hpos hend),
          .straight hcap hcap (.inr (hgap.trans (hold.trans_le hlimit))) htiles'⟩
      · have hlt : s.pool.tail + x.size < s.pool.limit := lt_of_le_of_ne htiles.le hend
        exact ⟨_, hcall (mempoolFree_of_lt hpos hlt),
          .wrapped old new hcap rfl hlimit (Nat.lt_add_right _ hgap) hlt htiles htiles'⟩

theorem Layout.call (h : Layout capacity s) {c : PoolCall} (hsafe : c.Safe s)
    (hs : s.call c = some s') : Layout capacity s' := by
  cases c with
  | alloc size => exact h.alloc hs hsafe
  | free =>
    have hne : s.live ≠ [] := by
      intro hnil
      simp [PoolState.call, hnil] at hs
    obtain ⟨t, ht, hlayout⟩ := h.free hne
    rw [hs] at ht
    cases ht
    exact hlayout

/-! ## The promises -/

/-- A pool with a layout is sound. -/
theorem Layout.sound (h : Layout capacity s) : s.Sound capacity := by
  have hfree : s.live ≠ [] → (s.call .free).isSome := by
    intro hne
    obtain ⟨t, ht, -⟩ := h.free hne
    rw [ht]
    rfl
  rcases h with ⟨hcap, hlimit, hhead, htiles⟩ |
    ⟨old, new, hcap, hlive, hlimit, hgap, hold, htiles, htiles'⟩
  · refine ⟨htiles.pairwise_disjoint, fun x hx => (htiles.subset hx).trans ?_, ?_, hfree⟩
    · exact Set.Ico_subset_Ico (Nat.zero_le _) (by omega)
    · rw [htiles.eq_nil_iff, eq_comm]
  · have hfront : ∀ y ∈ new, y.cells ⊆ Set.Ico 0 s.pool.tail := fun y hy =>
      (htiles'.subset hy).trans (Set.Ico_subset_Ico_right hgap.le)
    refine ⟨?_, ?_, ?_, hfree⟩
    · rw [hlive]
      refine List.pairwise_append.mpr
        ⟨htiles.pairwise_disjoint, htiles'.pairwise_disjoint, fun x hx y hy => ?_⟩
      exact (Span.disjoint_of_subset (hfront y hy) (htiles.subset hx)).symm
    · intro x hx
      rw [hlive] at hx
      rcases List.mem_append.mp hx with hx | hx
      · exact (htiles.subset hx).trans (Set.Ico_subset_Ico (Nat.zero_le _) hlimit)
      · exact (hfront x hx).trans (Set.Ico_subset_Ico_right (by omega))
    · have hold' : old ≠ [] := fun hnil => by
        have := htiles.eq_nil_iff.mp hnil
        omega
      refine ⟨fun heq => by omega, fun hnil => ?_⟩
      rw [hlive] at hnil
      exact absurd (List.append_eq_nil_iff.mp hnil).1 hold'

/-- A call that is not safe leaves a pool that is not sound. -/
theorem not_sound_of_not_safe {c : PoolCall} (h : s.Sound capacity) (hsafe : ¬ c.Safe s) :
    ∃ s', s.call c = some s' ∧ ¬ s'.Sound capacity := by
  cases c with
  | free => exact absurd trivial hsafe
  | alloc size =>
    rcases not_and_or.mp hsafe with hfull | hempty
    · -- `head` is on `tail`, with the new allocation live
      obtain ⟨hpos, htail, hroom⟩ := not_not.mp hfull
      refine ⟨⟨{ s.pool with head := 0 }, s.live ++ [⟨s.pool.head, size⟩]⟩, ?_, fun hs => ?_⟩
      · simp only [PoolState.call, mempoolAlloc]
        rw [if_pos hpos, if_pos (by omega), if_pos (by omega), if_pos hroom]
        rfl
      · exact absurd (hs.empty_iff.mp htail.symm) (by simp)
    · -- freeing it goes past `limit`
      obtain ⟨hpos, hmeet, hroom, hfront⟩ := not_not.mp hempty
      have hnil : s.live = [] := h.empty_iff.mp hmeet
      refine ⟨⟨{ s.pool with limit := s.pool.head, head := size }, [⟨0, size⟩]⟩, ?_, fun hs => ?_⟩
      · simp only [PoolState.call, mempoolAlloc, hnil]
        rw [if_pos hpos, if_pos (by omega), if_neg (by omega), if_neg (by omega)]
        rfl
      · have hok := hs.free_ok (by simp)
        simp only [PoolState.call, mempoolFree] at hok
        rw [if_pos hpos] at hok
        split_ifs at hok <;> first | omega | cases hok

/-- **The memory pool is sound** in every state of a run exactly if no allocation fills it up while
`tail` is 0 or wraps while it is empty. -/
theorem pool_sound_iff (capacity : ℕ) (calls : List PoolCall) :
    (∀ before after s, calls = before ++ after →
        exec PoolState.call (.new capacity) before = some s → s.Sound capacity) ↔
      Guarded PoolState.call PoolCall.Safe (.new capacity) calls := by
  constructor
  · intro h
    refine guarded_iff.mpr fun before c after s heq hs => ?_
    by_contra hsafe
    obtain ⟨s', hs', hnot⟩ := not_sound_of_not_safe (h before (c :: after) s heq hs) hsafe
    refine hnot (h (before ++ [c]) after s' (by simp [heq]) ?_)
    exact (exec_append_eq_some _).mpr ⟨s, hs, (exec_cons_eq_some _).mpr ⟨s', hs', rfl⟩⟩
  · intro h before after s heq hs
    rw [heq] at h
    exact (exec_invariant_of_guard (fun _ _ _ hl hsafe hstep => hl.call hsafe hstep)
      (layout_new capacity) h.of_append hs).sound

/-- A pool of ten bytes, filled up at once, gives out the same bytes again; a wrap in an empty one
cannot be freed. -/
theorem pool_overlaps_and_aborts :
    (∃ s, exec PoolState.call (.new 10) [.alloc 10] = some s ∧ s.pool.head = s.pool.tail ∧
        s.live = [⟨0, 10⟩]) ∧
      (∃ s, exec PoolState.call (.new 10) [.alloc 10, .alloc 10] = some s ∧
        s.live = [⟨0, 10⟩, ⟨0, 10⟩]) ∧
      ∃ s, exec PoolState.call (.new 10) [.alloc 8, .free, .alloc 3] = some s ∧
        s.live = [⟨0, 3⟩] ∧ mempoolFree s.pool 3 = none :=
  ⟨⟨⟨⟨10, 0, 0, 10⟩, [⟨0, 10⟩]⟩, rfl, rfl, rfl⟩,
    ⟨⟨⟨10, 0, 0, 10⟩, [⟨0, 10⟩, ⟨0, 10⟩]⟩, rfl, rfl⟩,
    ⟨⟨⟨10, 3, 8, 8⟩, [⟨0, 3⟩]⟩, rfl, rfl, rfl⟩⟩

end CloudProbe.Worker
