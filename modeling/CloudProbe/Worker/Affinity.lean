import CloudProbe.Lib.CString

/-!
# The CPU set of the affinity option

`cpu_set_parse` reads a list such as `0-3,8` into a mask. Numbers are read by `strtoul` with base 0,
and the upper end of a range may have white space and a sign in front. Setting a CPU that is not
below `CPU_SETSIZE` has no effect.

* **The model** (`cpuSetParse`): `fuel` bounds the rounds of both loops; `none` is a run that has
  not ended by then.
* **The grammar** (`CpuItem`, `CpuList`): lists of numbers and ranges, with what they stand for.
* **The loop over a range** (`cpuSetLoop_eq`, `cpuSetLoop_ulongMax`): it ends unless the range goes
  up to `ULONG_MAX`, which no counter exceeds.

Source: `cpworker/src/affinity_linux.c`.
-/

namespace CloudProbe.Worker

open CloudProbe.Lib List

/-! ## The model -/

def cpuSetSize : ℕ := 1024

/-- `cpu_set_t`. -/
abbrev CpuMask := ℕ → Bool

def cpuZero : CpuMask := fun _ => false

def cpuSet (v : ℕ) (mask : CpuMask) : CpuMask :=
  fun i => (decide (i = v) && decide (v < cpuSetSize)) || mask i

def isdigit (c : UInt8) : Bool := 48 ≤ c && c ≤ 57

/-- The loop over a range; its counter is an `unsigned long`.
Source: `cpu_set_parse` -/
def cpuSetLoop : ℕ → ℕ → ℕ → CpuMask → Option CpuMask
  | 0, v, v1, mask => if v ≤ v1 then none else some mask
  | fuel + 1, v, v1, mask =>
    if v ≤ v1 then cpuSetLoop fuel ((v + 1) % 2 ^ 64) v1 (cpuSet v mask) else some mask

/-- What a round of the outer loop finds at `pos`: nothing it accepts, a number that ends the text,
or the ends of a range and the position behind it. -/
inductive CpuRead
  | invalid
  | last (v0 : ℕ)
  | span (v0 v1 : ℕ) (pos : List UInt8)
deriving DecidableEq

/-- The part of a round in front of the loop over the range.
Source: `cpu_set_parse` -/
def readCpuItem (pos : List UInt8) : CpuRead :=
  if ¬ (pos.head?).any isdigit then .invalid
  else
    let (v0, stop) := strtoul pos 0
    if stop = pos then .invalid
    else if stop = [] then .last v0
    else if stop.head? = some 45 then
      let (v1, stop1) := strtoul stop.tail 0
      if stop1 = stop.tail then .invalid
      else if v0 > v1 then .invalid
      else .span v0 v1 stop1
    else .span v0 v0 stop

/-- The outer loop, at `pos`.
Source: `cpu_set_parse` -/
def cpuSetParseFrom : ℕ → CpuMask → List UInt8 → Option (ℤ × CpuMask)
  | 0, _, _ => none
  | fuel + 1, mask, pos =>
    if pos = [] then some (0, mask)
    else
      match readCpuItem pos with
      | .invalid => some (-1, mask)
      | .last v0 => some (0, cpuSet v0 mask)
      | .span v0 v1 pos =>
        if pos.head? = some 44 ∨ pos = [] then
          (cpuSetLoop fuel v0 v1 mask).bind fun mask =>
            if pos = [] then some (0, mask)
            else if pos.tail = [] then some (-1, mask)
            else cpuSetParseFrom fuel mask pos.tail
        else some (-1, mask)

/-- The value returned and the mask.
Source: `cpu_set_parse` -/
def cpuSetParse (fuel : ℕ) (value : CString) : Option (ℤ × CpuMask) :=
  cpuSetParseFrom fuel cpuZero value.bytes

/-- `schedSetaffinity` is what the system call returns for a mask.
Source: `set_cpu_affinity` -/
def setCpuAffinity (schedSetaffinity : CpuMask → ℤ) (fuel : ℕ) : Option CString → Option ℤ
  | none => some (-1)
  | some value =>
    (cpuSetParse fuel value).map fun r => if r.1 ≠ 0 then -1 else schedSetaffinity r.2

/-! ## The grammar -/

/-- A number that may stand first in an item: it starts with a digit. -/
structure CpuNumber (t : List UInt8) (v : ℕ) : Prop where
  numeral : Numeral 0 t v
  digit : (t.head?).any isdigit = true

inductive CpuRange : List UInt8 → ℕ → ℕ → Prop
  | mk {t u : List UInt8} {a b : ℕ} (ha : CpuNumber t a) (hb : Numeral 0 u b) (hab : a ≤ b) :
      CpuRange (t ++ 45 :: u) a b

/-- The text is a number or a range, and stands for the CPUs from `a` to `b`. -/
inductive CpuItem : List UInt8 → ℕ → ℕ → Prop
  | number {t : List UInt8} {a : ℕ} (ha : CpuNumber t a) : CpuItem t a a
  | range {t : List UInt8} {a b : ℕ} (hr : CpuRange t a b) : CpuItem t a b

/-- The text is a list of items separated by commas, and stands for these ranges. -/
inductive CpuList : List UInt8 → List (ℕ × ℕ) → Prop
  | one {t : List UInt8} {a b : ℕ} (h : CpuItem t a b) : CpuList t [(a, b)]
  | cons {t s : List UInt8} {a b : ℕ} {l : List (ℕ × ℕ)} (h : CpuItem t a b) (hl : CpuList s l) :
      CpuList (t ++ 44 :: s) ((a, b) :: l)

/-- The parse comes to a range up to `ULONG_MAX`: behind a list of items there is one, which ends at
a comma or at the end of the text, or a number of this value in front of a comma. A number that ends
the text is set without the loop. -/
inductive Endless : List UInt8 → Prop
  | range {t rest : List UInt8} {a : ℕ} (hr : CpuRange t a ulongMax)
      (hrest : rest.head? = some 44 ∨ rest = []) : Endless (t ++ rest)
  | number {t rest : List UInt8} (ha : CpuNumber t ulongMax) : Endless (t ++ 44 :: rest)
  | later {t s : List UInt8} {a b : ℕ} (h : CpuItem t a b) (hs : Endless s) :
      Endless (t ++ 44 :: s)

/-- The CPUs that ranges stand for, as far as a mask can hold them. -/
def Listed (l : List (ℕ × ℕ)) (i : ℕ) : Prop :=
  i < cpuSetSize ∧ ∃ r ∈ l, r.1 ≤ i ∧ i ≤ r.2

/-! ## The loop over a range -/

/-- **The loop over a range below `ULONG_MAX`** ends with the numbers of the range in the mask. -/
theorem cpuSetLoop_eq {v1 : ℕ} (h1 : v1 < ulongMax) (fuel v : ℕ) (mask : CpuMask) :
    cpuSetLoop fuel v v1 mask =
      if v1 + 1 - v ≤ fuel then
        some fun i => decide (i < cpuSetSize ∧ v ≤ i ∧ i ≤ v1) || mask i
      else none := by
  -- A range that is used up adds nothing.
  have hnone : ∀ v (m : CpuMask), ¬ v ≤ v1 →
      (fun i => decide (i < cpuSetSize ∧ v ≤ i ∧ i ≤ v1) || m i) = m := by
    intro v m hv
    funext i
    have hi : ¬ (i < cpuSetSize ∧ v ≤ i ∧ i ≤ v1) := by omega
    rw [decide_eq_false hi, Bool.false_or]
  induction fuel generalizing v mask with
  | zero =>
    rw [cpuSetLoop]
    by_cases hv : v ≤ v1
    · rw [if_pos hv, if_neg (by omega)]
    · rw [if_neg hv, if_pos (by omega), hnone v mask hv]
  | succ fuel ih =>
    rw [cpuSetLoop]
    by_cases hv : v ≤ v1
    · have hnext : (v + 1) % 2 ^ 64 = v + 1 := by
        rw [ulongMax] at h1
        omega
      have hset : (fun i => decide (i < cpuSetSize ∧ v + 1 ≤ i ∧ i ≤ v1) || cpuSet v mask i) =
          fun i => decide (i < cpuSetSize ∧ v ≤ i ∧ i ≤ v1) || mask i := by
        funext i
        rw [Bool.eq_iff_iff]
        simp only [cpuSet, Bool.or_eq_true, Bool.and_eq_true, decide_eq_true_eq]
        rw [← or_assoc]
        apply or_congr_left
        omega
      have hrounds : v1 + 1 - (v + 1) ≤ fuel ↔ v1 + 1 - v ≤ fuel + 1 := by omega
      rw [if_pos hv, hnext, ih, hset]
      simp only [hrounds]
    · rw [if_neg hv, if_pos (by omega), hnone v mask hv]

/-- **The loop up to `ULONG_MAX`** never ends: the counter wraps and is never above it. -/
theorem cpuSetLoop_ulongMax (fuel : ℕ) {v : ℕ} (hv : v ≤ ulongMax) (mask : CpuMask) :
    cpuSetLoop fuel v ulongMax mask = none := by
  induction fuel generalizing v mask with
  | zero => rw [cpuSetLoop, if_pos hv]
  | succ fuel ih =>
    rw [cpuSetLoop, if_pos hv]
    apply ih
    rw [ulongMax]
    omega

variable {fuel : ℕ} {mask : CpuMask} {pos : List UInt8} {a : ℕ} {t rest : List UInt8} {b : ℕ}

theorem cpuSetLoop_some {v v1 : ℕ} {mask' : CpuMask} (hv : v ≤ v1) (h1 : v1 ≤ ulongMax)
    (h : cpuSetLoop fuel v v1 mask = some mask') (i : ℕ) :
    mask' i = true ↔ (i < cpuSetSize ∧ v ≤ i ∧ i ≤ v1) ∨ mask i = true := by
  have hlt : v1 < ulongMax := by
    refine lt_of_le_of_ne h1 fun heq => ?_
    rw [heq, cpuSetLoop_ulongMax fuel (heq ▸ hv)] at h
    cases h
  rw [cpuSetLoop_eq hlt] at h
  by_cases hfuel : v1 + 1 - v ≤ fuel
  · rw [if_pos hfuel, Option.some.injEq] at h
    rw [← h, Bool.or_eq_true, decide_eq_true_eq]
  · rw [if_neg hfuel] at h
    cases h

/-! ## Reading an item -/

theorem eq_cons_of_head? {s : List UInt8} {c : UInt8} (h : s.head? = some c) : s = c :: s.tail := by
  cases s with
  | nil => cases h
  | cons d s =>
    cases h
    rfl

theorem stops_cons {c : UInt8} (hc : c = 44 ∨ c = 45) (rest : List UInt8) : Stops (c :: rest) := by
  intro d hd
  cases hd
  rcases hc with rfl | rfl <;> decide

theorem readCpuItem_of_number {stop : List UInt8} {v0 : ℕ} (hdigit : (pos.head?).any isdigit = true)
    (hread : strtoul pos 0 = (v0, stop)) (hmoved : stop ≠ pos) :
    readCpuItem pos =
      if stop = [] then .last v0
      else if stop.head? = some 45 then
        if (strtoul stop.tail 0).2 = stop.tail then .invalid
        else if v0 > (strtoul stop.tail 0).1 then .invalid
        else .span v0 (strtoul stop.tail 0).1 (strtoul stop.tail 0).2
      else .span v0 v0 stop := by
  rw [readCpuItem, if_neg (not_not.mpr hdigit), hread]
  dsimp only
  rw [if_neg hmoved]

theorem CpuNumber.readCpuItem_append (h : CpuNumber t a) (hrest : Stops rest) :
    readCpuItem (t ++ rest) =
      if rest = [] then .last a
      else if rest.head? = some 45 then
        if (strtoul rest.tail 0).2 = rest.tail then .invalid
        else if a > (strtoul rest.tail 0).1 then .invalid
        else .span a (strtoul rest.tail 0).1 (strtoul rest.tail 0).2
      else .span a a rest := by
  obtain ⟨c, t', rfl⟩ := exists_cons_of_ne_nil h.numeral.ne_nil
  refine readCpuItem_of_number h.digit (strtoul_append h.numeral hrest) ?_
  intro heq
  exact h.numeral.ne_nil (append_left_eq_self.mp heq.symm)

theorem CpuNumber.read (h : CpuNumber t a) (rest : List UInt8) :
    readCpuItem (t ++ 44 :: rest) = .span a a (44 :: rest) := by
  rw [h.readCpuItem_append (stops_cons (.inl rfl) rest)]
  rfl

/-- A range is read as one. -/
theorem CpuRange.read (h : CpuRange t a b) (hrest : rest.head? = some 44 ∨ rest = []) :
    readCpuItem (t ++ rest) = .span a b rest := by
  cases h with
  | @mk t u _ _ ha hb hab =>
    have hstop : Stops rest := by
      intro c hc
      rcases hrest with hcomma | rfl
      · rw [hcomma, Option.some.injEq] at hc
        subst hc
        decide
      · cases hc
    rw [append_assoc, cons_append,
      ha.readCpuItem_append (stops_cons (.inr rfl) (u ++ rest)), if_neg (cons_ne_nil _ _),
      List.head?_cons, if_pos rfl, tail_cons, strtoul_append hb hstop]
    have hmoved : rest ≠ u ++ rest := fun heq =>
      hb.ne_nil (append_left_eq_self.mp heq.symm)
    rw [if_neg hmoved, if_neg (by omega)]

theorem CpuItem.read (h : CpuItem t a b) (rest : List UInt8) :
    readCpuItem (t ++ 44 :: rest) = .span a b (44 :: rest) := by
  cases h with
  | number ha => exact ha.read rest
  | range hr => exact hr.read (.inl rfl)

theorem CpuItem.le (h : CpuItem t a b) : a ≤ b ∧ b ≤ ulongMax := by
  cases h with
  | number ha => exact ⟨le_refl a, ha.numeral.le_ulongMax⟩
  | range hr =>
    cases hr with
    | mk ha hb hab => exact ⟨hab, hb.le_ulongMax⟩

/-- A valid item begins with a number. -/
theorem number_of_readCpuItem (h : readCpuItem pos ≠ .invalid) :
    ∃ t stop v0, pos = t ++ stop ∧ CpuNumber t v0 ∧ strtoul pos 0 = (v0, stop) ∧ stop ≠ pos ∧
      (pos.head?).any isdigit = true := by
  rw [readCpuItem] at h
  by_cases hdigit : (pos.head?).any isdigit = true
  · rw [if_neg (not_not.mpr hdigit)] at h
    dsimp only at h
    by_cases hmoved : (strtoul pos 0).2 = pos
    · rw [if_pos hmoved] at h
      exact absurd rfl h
    · have hpair : strtoul pos 0 = ((strtoul pos 0).1, (strtoul pos 0).2) := rfl
      obtain ⟨t, ht, hnum⟩ := numeral_of_strtoul hpair hmoved
      refine ⟨t, (strtoul pos 0).2, (strtoul pos 0).1, ht, ⟨hnum, ?_⟩, rfl, hmoved, hdigit⟩
      obtain ⟨c, t', rfl⟩ := exists_cons_of_ne_nil hnum.ne_nil
      rw [ht] at hdigit
      exact hdigit
  · rw [if_pos hdigit] at h
    exact absurd rfl h

/-- **What a round finds**: a number that ends the text, or an item, and a range when nothing is
behind it. -/
theorem readCpuItem_cases (pos : List UInt8) :
    readCpuItem pos = .invalid ∨
      (∃ v0, readCpuItem pos = .last v0 ∧ CpuNumber pos v0) ∨
      ∃ t rest v0 v1, readCpuItem pos = .span v0 v1 rest ∧ pos = t ++ rest ∧
        (CpuNumber t v0 ∧ v1 = v0 ∧ rest ≠ [] ∨ CpuRange t v0 v1) := by
  by_cases hvalid : readCpuItem pos = .invalid
  · exact .inl hvalid
  obtain ⟨t, stop, v0, hpos, hnum, hread, hmoved, hdigit⟩ := number_of_readCpuItem hvalid
  have heq := readCpuItem_of_number hdigit hread hmoved
  split_ifs at heq with hstop hminus hsecond horder
  · rw [hstop, append_nil] at hpos
    exact .inr (.inl ⟨v0, heq, hpos ▸ hnum⟩)
  · exact absurd heq hvalid
  · exact absurd heq hvalid
  · have hpair : strtoul stop.tail 0 = ((strtoul stop.tail 0).1, (strtoul stop.tail 0).2) := rfl
    obtain ⟨u, hu, hnum1⟩ := numeral_of_strtoul hpair hsecond
    refine .inr (.inr ⟨t ++ 45 :: u, _, v0, _, heq, ?_, .inr (.mk hnum hnum1 (by omega))⟩)
    rw [append_assoc, cons_append, ← hu, ← eq_cons_of_head? hminus]
    exact hpos
  · exact .inr (.inr ⟨t, stop, v0, v0, heq, hpos, .inl ⟨hnum, rfl, hstop⟩⟩)

theorem CpuItem.of_read (h : CpuNumber t a ∧ b = a ∧ rest ≠ [] ∨ CpuRange t a b) :
    CpuItem t a b := by
  obtain ⟨hnum, rfl, -⟩ | hrange := h
  · exact .number hnum
  · exact .range hrange

/-! ## The outer loop -/

theorem listed_single {i : ℕ} : Listed [(a, b)] i ↔ i < cpuSetSize ∧ a ≤ i ∧ i ≤ b := by
  simp [Listed]

theorem listed_cons {i : ℕ} {l : List (ℕ × ℕ)} :
    Listed ((a, b) :: l) i ↔ (i < cpuSetSize ∧ a ≤ i ∧ i ≤ b) ∨ Listed l i := by
  simp only [Listed, mem_cons, exists_eq_or_imp, and_or_left]

theorem cpuSetParseFrom_span (h : readCpuItem pos = .span a b rest) (fuel : ℕ) (mask : CpuMask) :
    cpuSetParseFrom (fuel + 1) mask pos =
      if rest.head? = some 44 ∨ rest = [] then
        (cpuSetLoop fuel a b mask).bind fun mask =>
          if rest = [] then some (0, mask)
          else if rest.tail = [] then some (-1, mask)
          else cpuSetParseFrom fuel mask rest.tail
      else some (-1, mask) := by
  have hpos : pos ≠ [] := by
    rintro rfl
    cases h
  rw [cpuSetParseFrom, if_neg hpos, h]

theorem Endless.ne_nil (h : Endless pos) : pos ≠ [] := by
  cases h with
  | range hr hrest =>
    cases hr with
    | mk ha hb hab => simp
  | number ha | later h hs => simp

/-- **A text that comes to a range up to `ULONG_MAX` is never read to an end.** -/
theorem Endless.never (h : Endless pos) (fuel : ℕ) (mask : CpuMask) :
    cpuSetParseFrom fuel mask pos = none := by
  induction h generalizing fuel mask with
  | @range t rest a hr hrest =>
    cases fuel with
    | zero => rfl
    | succ fuel =>
      have ha : a ≤ ulongMax := (CpuItem.range hr).le.1
      rw [cpuSetParseFrom_span (hr.read hrest), if_pos hrest,
        cpuSetLoop_ulongMax fuel ha, Option.bind_none]
  | @number t rest ha =>
    cases fuel with
    | zero => rfl
    | succ fuel =>
      rw [cpuSetParseFrom_span (ha.read rest), if_pos (.inl rfl),
        cpuSetLoop_ulongMax fuel (le_refl _), Option.bind_none]
  | @later t s a b hitem hs ih =>
    cases fuel with
    | zero => rfl
    | succ fuel =>
      rw [cpuSetParseFrom_span (hitem.read s), if_pos (.inl rfl)]
      cases cpuSetLoop fuel a b mask with
      | none => rfl
      | some mask' =>
        rw [Option.bind_some, if_neg (cons_ne_nil _ _), tail_cons, if_neg hs.ne_nil]
        exact ih fuel mask'

/-- **Every other text is read to an end**, in as many rounds as it has characters. -/
theorem ends_of_not_endless (h : ¬ Endless pos) (hfuel : pos.length + 2 ^ 64 < fuel)
    (mask : CpuMask) :
    ∃ r, cpuSetParseFrom fuel mask pos = some r := by
  induction fuel generalizing pos mask with
  | zero => omega
  | succ fuel ih =>
    by_cases hpos : pos = []
    · exact ⟨_, by rw [cpuSetParseFrom, if_pos hpos]⟩
    obtain hread | ⟨v0, hread, -⟩ | ⟨t, rest, a, b, hread, rfl, hitem⟩ := readCpuItem_cases pos
    · exact ⟨_, by rw [cpuSetParseFrom, if_neg hpos, hread]⟩
    · exact ⟨_, by rw [cpuSetParseFrom, if_neg hpos, hread]⟩
    rw [cpuSetParseFrom_span hread]
    by_cases hend : rest.head? = some 44 ∨ rest = []
    · have hb : b < ulongMax := by
        refine lt_of_le_of_ne (CpuItem.of_read hitem).le.2 fun heq => h ?_
        obtain ⟨hnum, hone, hrest⟩ | hrange := hitem
        · obtain rfl : a = ulongMax := hone.symm.trans heq
          rw [eq_cons_of_head? (hend.resolve_right hrest)]
          exact .number hnum
        · exact .range (heq ▸ hrange) hend
      rw [if_pos hend, cpuSetLoop_eq hb, if_pos (by rw [ulongMax] at hb; omega), Option.bind_some]
      by_cases hnil : rest = []
      · exact ⟨_, if_pos hnil⟩
      rw [if_neg hnil]
      by_cases htail : rest.tail = []
      · exact ⟨_, if_pos htail⟩
      rw [if_neg htail]
      have hcons := eq_cons_of_head? (hend.resolve_right hnil)
      rw [hcons] at h hfuel
      refine ih (fun hlater => h (.later (CpuItem.of_read hitem) hlater)) ?_ _
      simp only [length_append, length_cons] at hfuel
      omega
    · exact ⟨_, if_neg hend⟩

/-- **An accepted text is a list, and the mask holds what it stands for.** -/
theorem list_of_cpuSetParseFrom {mask' : CpuMask}
    (h : cpuSetParseFrom fuel mask pos = some (0, mask')) (hne : pos ≠ []) :
    ∃ l, CpuList pos l ∧ ∀ i, mask' i = true ↔ Listed l i ∨ mask i = true := by
  induction fuel generalizing mask pos with
  | zero => cases h
  | succ fuel ih =>
    obtain hread | ⟨v0, hread, hnum⟩ | ⟨t, rest, a, b, hread, rfl, hitem⟩ := readCpuItem_cases pos
    · rw [cpuSetParseFrom, if_neg hne, hread] at h
      cases h
    · rw [cpuSetParseFrom, if_neg hne, hread] at h
      obtain rfl : cpuSet v0 mask = mask' := congrArg Prod.snd (Option.some.inj h)
      refine ⟨_, .one (.number hnum), fun i => ?_⟩
      rw [listed_single]
      simp only [cpuSet, Bool.or_eq_true, Bool.and_eq_true, decide_eq_true_eq]
      apply or_congr_left
      omega
    · have hitem' := CpuItem.of_read hitem
      rw [cpuSetParseFrom_span hread] at h
      split_ifs at h with hend hnil htail
      · obtain ⟨mask₁, hloop, h⟩ := Option.bind_eq_some_iff.mp h
        obtain rfl : mask₁ = mask' := congrArg Prod.snd (Option.some.inj h)
        refine ⟨_, .one (by rwa [hnil, append_nil]), fun i => ?_⟩
        rw [listed_single]
        exact cpuSetLoop_some hitem'.le.1 hitem'.le.2 hloop i
      · obtain ⟨mask₁, -, h⟩ := Option.bind_eq_some_iff.mp h
        cases h
      · obtain ⟨mask₁, hloop, h⟩ := Option.bind_eq_some_iff.mp h
        have hmask₁ := cpuSetLoop_some hitem'.le.1 hitem'.le.2 hloop
        obtain ⟨l, hlist, hmask⟩ := ih h htail
        refine ⟨(a, b) :: l, ?_, fun i => ?_⟩
        · rw [eq_cons_of_head? (hend.resolve_right hnil)]
          exact .cons hitem' hlist
        · rw [hmask i, hmask₁ i, listed_cons, or_left_comm, or_assoc]
      · cases h

/-! ## Termination and exactness -/

theorem listed_of_cpuSetParse {value : CString} (h : cpuSetParse fuel value = some (0, mask)) :
    ∃ l, (value.bytes = [] ∧ l = [] ∨ CpuList value.bytes l) ∧ ∀ i, mask i = true ↔ Listed l i := by
  by_cases hne : value.bytes = []
  · refine ⟨[], .inl ⟨hne, rfl⟩, fun i => ?_⟩
    cases fuel with
    | zero => cases h
    | succ fuel =>
      rw [cpuSetParse, cpuSetParseFrom, if_pos hne] at h
      obtain rfl : cpuZero = mask := congrArg Prod.snd (Option.some.inj h)
      simp [cpuZero, Listed]
  · obtain ⟨l, hlist, hmask⟩ := list_of_cpuSetParseFrom h hne
    refine ⟨l, .inr hlist, fun i => ?_⟩
    rw [hmask i]
    simp [cpuZero]

/-- **CPU set parsing is exact, and ends unless it comes to a range up to `ULONG_MAX`**: what it
accepts is a list of numbers and ranges, and the mask holds exactly its CPUs. Source:
`cpu_set_parse` -/
theorem cpu_set_parse_exact (value : CString) :
    ((∃ fuel r, cpuSetParse fuel value = some r) ↔ ¬ Endless value.bytes) ∧
      ∀ fuel mask, cpuSetParse fuel value = some (0, mask) →
        ∃ l, (value.bytes = [] ∧ l = [] ∨ CpuList value.bytes l) ∧
          ∀ i, mask i = true ↔ Listed l i := by
  refine ⟨⟨?_, ?_⟩, ?_⟩
  · rintro ⟨fuel, r, hr⟩ hendless
    rw [cpuSetParse, hendless.never] at hr
    cases hr
  · intro h
    exact ⟨_, ends_of_not_endless h (Nat.lt_succ_self _) cpuZero⟩
  · intro fuel mask h
    exact listed_of_cpuSetParse h

/-- The text `0-18446744073709551615`. -/
def cpusToUlongMax : CString :=
  ⟨[48, 45, 49, 56, 52, 52, 54, 55, 52, 52, 48, 55, 51, 55, 48, 57, 53, 53, 49, 54, 49, 53],
    by decide⟩

/-- `0-18446744073709551615` is read as a range up to `ULONG_MAX`, and the loop never ends. -/
theorem cpu_set_parse_never_returns :
    readCpuItem cpusToUlongMax.bytes = .span 0 ulongMax [] ∧
      ∀ fuel, cpuSetParse fuel cpusToUlongMax = none := by
  have hread : readCpuItem cpusToUlongMax.bytes = .span 0 ulongMax [] := by decide
  refine ⟨hread, fun fuel => ?_⟩
  cases fuel with
  | zero => rfl
  | succ fuel =>
    rw [cpuSetParse, cpuSetParseFrom_span hread, if_pos (.inr rfl),
      cpuSetLoop_ulongMax fuel (Nat.zero_le _), Option.bind_none]

end CloudProbe.Worker
