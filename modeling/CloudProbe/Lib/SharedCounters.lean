import Mathlib.Algebra.BigOperators.Group.Finset.Piecewise
import Mathlib.Data.Fintype.Basic
import Mathlib.Data.Nat.ModEq
import Mathlib.Tactic.Common

/-!
# Counters that several threads add to without a lock

An addition to a counter in memory is a load and a store. Other threads run in between, and what
they add to the counter is then lost. Counter `c` counts modulo `span c`.

* **The machine** (`SharedCounters`): each thread has a list of additions to make (`issue`) and
  makes them one after the other, a load or a store at a time (`advance`).
* **The rule** (`Consistent`): as long as no thread loads a counter that a thread has loaded and not
  stored yet (`overlaps`), nothing is lost. The counters and what is still to be added make up all
  that was issued.
-/

namespace CloudProbe.Lib

open Finset

variable {τ ι : Type*} [DecidableEq ι]

/-- What a list of additions adds to the counter `c`. -/
def added (adds : List (ι × ℕ)) (c : ι) : ℕ :=
  (adds.map fun a => if a.1 = c then a.2 else 0).sum

@[simp] theorem added_nil (c : ι) : added [] c = 0 := rfl

@[simp] theorem added_cons (a : ι × ℕ) (adds : List (ι × ℕ)) (c : ι) :
    added (a :: adds) c = (if a.1 = c then a.2 else 0) + added adds c := by
  simp [added]

@[simp] theorem added_append (adds adds' : List (ι × ℕ)) (c : ι) :
    added (adds ++ adds') c = added adds c + added adds' c := by
  simp [added]

theorem added_flatMap {κ : Type*} (l : List κ) (f : κ → List (ι × ℕ)) (c : ι) :
    added (l.flatMap f) c = (l.map fun k => added (f k) c).sum := by
  induction l with
  | nil => rfl
  | cons k l ih => simp [ih]

/-- The counters and what the threads are doing to them. -/
structure SharedCounters (τ ι : Type*) where
  value : ι → ℕ
  /-- the additions a thread still has to make -/
  pending : τ → List (ι × ℕ)
  /-- the counter a thread has loaded and not stored yet, with the value it got -/
  loaded : τ → Option (ι × ℕ)

namespace SharedCounters

def zero : SharedCounters τ ι := ⟨fun _ => 0, fun _ => [], fun _ => none⟩

variable {span : ι → ℕ} {s s' : SharedCounters τ ι} {total : ι → ℕ} {t : τ} [DecidableEq τ]

def issue (s : SharedCounters τ ι) (t : τ) (adds : List (ι × ℕ)) : SharedCounters τ ι :=
  { s with pending := Function.update s.pending t adds }

def load (s : SharedCounters τ ι) (t : τ) (c : ι) : SharedCounters τ ι :=
  { s with loaded := Function.update s.loaded t (some (c, s.value c)) }

/-- Thread `t` stores `v` in the counter `c` and has `rest` left to add. -/
def store (s : SharedCounters τ ι) (t : τ) (c : ι) (v : ℕ) (rest : List (ι × ℕ)) :
    SharedCounters τ ι where
  value := Function.update s.value c v
  pending := Function.update s.pending t rest
  loaded := Function.update s.loaded t none

/-- The next load or store of thread `t`. -/
def advance (span : ι → ℕ) (s : SharedCounters τ ι) (t : τ) : Option (SharedCounters τ ι) :=
  match s.pending t, s.loaded t with
  | [], _ => none
  | (c, _) :: _, none => some (s.load t c)
  | (c, n) :: rest, some (_, v) => some (s.store t c ((v + n) % span c) rest)

variable [Fintype τ]

/-- Thread `t` is about to load a counter that a thread has loaded and not stored yet. -/
def overlaps (s : SharedCounters τ ι) (t : τ) : Bool :=
  match s.pending t, s.loaded t with
  | (c, _) :: _, none => decide (∃ u, (s.loaded u).map Prod.fst = some c)
  | _, _ => false

/-- No addition was lost, where `total` is all that was issued. -/
structure Consistent (span : ι → ℕ) (s : SharedCounters τ ι) (total : ι → ℕ) : Prop where
  sum : ∀ c, s.value c + ∑ t, added (s.pending t) c ≡ total c [MOD span c]
  lt : ∀ c, s.value c < span c
  /-- what a thread has loaded is still in the counter -/
  loaded : ∀ t c v, s.loaded t = some (c, v) →
    v = s.value c ∧ ∃ n rest, s.pending t = (c, n) :: rest
  alone : ∀ t u c v w, s.loaded t = some (c, v) → s.loaded u = some (c, w) → t = u

/-- The sum over all threads when the list of one of them changes. -/
theorem sum_update (p : τ → List (ι × ℕ)) (t : τ) (adds : List (ι × ℕ)) (c : ι) :
    ∑ u, added (Function.update p t adds u) c + added (p t) c =
      ∑ u, added (p u) c + added adds c := by
  have happly : (fun u => added (Function.update p t adds u) c) =
      Function.update (fun u => added (p u) c) t (added adds c) :=
    Function.comp_update (added · c) p t adds
  rw [happly, sum_update_of_mem (mem_univ t),
    sum_eq_add_sum_sdiff_singleton_of_mem (mem_univ t) fun u => added (p u) c]
  omega

omit [DecidableEq τ] in
theorem consistent_zero (hspan : ∀ c, 0 < span c) :
    Consistent span (zero : SharedCounters τ ι) fun _ => 0 where
  sum c := by simp [zero, Nat.ModEq]
  lt := hspan
  loaded _ _ _ h := nomatch h
  alone _ _ _ _ _ h := nomatch h

/-- A thread that has nothing to add gets new additions. -/
theorem Consistent.issue (h : Consistent span s total) (hidle : s.pending t = [])
    (adds : List (ι × ℕ)) :
    Consistent span (s.issue t adds) fun c => total c + added adds c where
  sum c := by
    have hsum := sum_update s.pending t adds c
    rw [hidle, added_nil, Nat.add_zero] at hsum
    show s.value c + ∑ u, added (Function.update s.pending t adds u) c ≡ _ [MOD _]
    rw [hsum, ← Nat.add_assoc]
    exact (h.sum c).add_right _
  lt := h.lt
  loaded u c v hu := by
    obtain ⟨hv, n, rest, hpending⟩ := h.loaded u c v hu
    refine ⟨hv, n, rest, ?_⟩
    have hne : u ≠ t := by
      rintro rfl
      rw [hidle] at hpending
      cases hpending
    rw [← hpending]
    exact Function.update_of_ne hne _ _
  alone := h.alone

/-- A load that is alone stays current. -/
theorem Consistent.load (h : Consistent span s total) {c : ι} {n : ℕ} {rest : List (ι × ℕ)}
    (hpending : s.pending t = (c, n) :: rest) (hfree : ∀ u w, s.loaded u ≠ some (c, w)) :
    Consistent span (s.load t c) total where
  sum := h.sum
  lt := h.lt
  loaded u d v hu := by
    simp only [SharedCounters.load, Function.update_apply] at hu
    split_ifs at hu with hut
    · cases hu
      exact ⟨rfl, n, rest, hut ▸ hpending⟩
    · exact h.loaded u d v hu
  alone u u' d v w hu hu' := by
    simp only [SharedCounters.load, Function.update_apply] at hu hu'
    split_ifs at hu hu' with hut hut'
    · exact hut.trans hut'.symm
    · cases hu
      exact absurd hu' (hfree u' w)
    · cases hu'
      exact absurd hu (hfree u v)
    · exact h.alone u u' d v w hu hu'

/-- A store that follows its own load loses nothing. -/
theorem Consistent.store (h : Consistent span s total) {c : ι} {n : ℕ} {rest : List (ι × ℕ)}
    (hpending : s.pending t = (c, n) :: rest) (hloaded : s.loaded t = some (c, s.value c)) :
    Consistent span (s.store t c ((s.value c + n) % span c) rest) total := by
  have hother {u : τ} {d : ι} {w : ℕ} (hu : Function.update s.loaded t none u = some (d, w)) :
      u ≠ t ∧ s.loaded u = some (d, w) := by
    rw [Function.update_apply] at hu
    split_ifs at hu with hut
    exact ⟨hut, hu⟩
  refine ⟨?_, ?_, ?_, ?_⟩
  · intro d
    have hsum := sum_update s.pending t rest d
    rw [hpending, added_cons] at hsum
    refine Nat.ModEq.trans ?_ (h.sum d)
    rcases eq_or_ne d c with rfl | hd
    · rw [if_pos rfl] at hsum
      simp only [SharedCounters.store, Function.update_self]
      calc (s.value d + n) % span d + ∑ u, added (Function.update s.pending t rest u) d
          ≡ s.value d + n + ∑ u, added (Function.update s.pending t rest u) d [MOD span d] :=
            (Nat.mod_modEq _ _).add_right _
        _ = s.value d + ∑ u, added (s.pending u) d := by omega
    · rw [if_neg hd.symm, Nat.zero_add] at hsum
      simp only [SharedCounters.store, Function.update_of_ne hd, Nat.add_right_cancel hsum]
      rfl
  · intro d
    simp only [SharedCounters.store, Function.update_apply]
    split_ifs with hd
    · rw [hd]
      exact Nat.mod_lt _ ((Nat.zero_le _).trans_lt (h.lt c))
    · exact h.lt d
  · intro u d w hu
    obtain ⟨hne, hu'⟩ := hother hu
    obtain ⟨hw, m, rest', hpending'⟩ := h.loaded u d w hu'
    refine ⟨?_, m, rest', (Function.update_of_ne hne _ _).trans hpending'⟩
    have hd : d ≠ c := by
      rintro rfl
      exact hne (h.alone u t d w _ hu' hloaded)
    exact hw.trans (Function.update_of_ne hd _ _).symm
  · intro u u' d w w' hu hu'
    exact h.alone u u' d w w' (hother hu).2 (hother hu').2

/-- **Nothing is lost.** A load or store that overlaps no other addition keeps the sum. -/
theorem Consistent.advance (h : Consistent span s total) (halone : s.overlaps t = false)
    (hs : s.advance span t = some s') : Consistent span s' total := by
  unfold SharedCounters.advance at hs
  split at hs
  next => cases hs
  next c n rest hpending hnone =>
    cases hs
    refine h.load hpending fun u w hu => ?_
    simp only [overlaps, hpending, hnone, decide_eq_false_iff_not] at halone
    exact halone ⟨u, by rw [hu]; rfl⟩
  next c n rest d v hpending hloaded =>
    cases hs
    obtain ⟨rfl, m, rest', hsame⟩ := h.loaded t d v hloaded
    cases hpending.symm.trans hsame
    exact h.store hpending hloaded

omit [DecidableEq τ] in
/-- When all additions are made, each counter has all that was issued. -/
theorem Consistent.value_eq (h : Consistent span s total) (hidle : ∀ t, s.pending t = []) (c : ι) :
    s.value c = total c % span c := by
  have hsum := h.sum c
  simp only [hidle, added_nil, sum_const_zero, Nat.add_zero] at hsum
  rw [← Nat.mod_eq_of_lt (h.lt c)]
  exact hsum

end SharedCounters

end CloudProbe.Lib
