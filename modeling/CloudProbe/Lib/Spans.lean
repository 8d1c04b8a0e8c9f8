import Mathlib.Data.Set.BooleanAlgebra
import Mathlib.Order.CompletePartialOrder
import Mathlib.Order.Interval.Set.Disjoint
import Mathlib.Tactic.Common

/-!
# Spans of memory

Half-open intervals of offsets, and lists of them laid one behind the other. `Tiles a l b` says that
the spans of `l`, none of them empty, cover `a` to `b` without a gap and in order.
-/

namespace CloudProbe.Lib

/-- A block of memory: where it starts and how long it is. -/
structure Span where
  start : ℕ
  size : ℕ
deriving DecidableEq

def Span.cells (x : Span) : Set ℕ := Set.Ico x.start (x.start + x.size)

def Tiles : ℕ → List Span → ℕ → Prop
  | a, [], b => a = b
  | a, x :: l, b => x.start = a ∧ 0 < x.size ∧ Tiles (a + x.size) l b

variable {a b c : ℕ} {l l' : List Span} {x : Span}

theorem Tiles.le (h : Tiles a l b) : a ≤ b := by
  induction l generalizing a with
  | nil => exact Nat.le_of_eq h
  | cons x l ih => exact (Nat.le_add_right a x.size).trans (ih h.2.2)

theorem Tiles.eq_nil_iff (h : Tiles a l b) : l = [] ↔ a = b := by
  cases l with
  | nil => exact ⟨fun _ => h, fun _ => rfl⟩
  | cons x l =>
    have hpos := h.2.1
    have hle := h.2.2.le
    constructor
    · nofun
    · omega

theorem Tiles.append (h : Tiles a l b) (h' : Tiles b l' c) : Tiles a (l ++ l') c := by
  induction l generalizing a with
  | nil =>
    obtain rfl : a = b := h
    exact h'
  | cons x l ih => exact ⟨h.1, h.2.1, ih h.2.2⟩

theorem Tiles.single (hpos : 0 < c) : Tiles a [⟨a, c⟩] (a + c) := ⟨rfl, hpos, rfl⟩

theorem Tiles.subset (h : Tiles a l b) (hx : x ∈ l) : x.cells ⊆ Set.Ico a b := by
  induction l generalizing a with
  | nil => cases hx
  | cons y l ih =>
    obtain ⟨rfl, -, hrest⟩ := h
    rcases List.mem_cons.mp hx with rfl | hx
    · exact Set.Ico_subset_Ico_right hrest.le
    · exact (ih hrest hx).trans (Set.Ico_subset_Ico_left (Nat.le_add_right _ _))

theorem Span.disjoint_of_subset {y : Span} (hx : x.cells ⊆ Set.Ico a b)
    (hy : y.cells ⊆ Set.Ico b c) : Disjoint x.cells y.cells :=
  (Set.Ico_disjoint_Ico_same).mono hx hy

theorem Tiles.pairwise_disjoint (h : Tiles a l b) :
    l.Pairwise fun x y => Disjoint x.cells y.cells := by
  induction l generalizing a with
  | nil => exact .nil
  | cons x l ih =>
    obtain ⟨rfl, -, hrest⟩ := h
    exact .cons (fun y hy => Span.disjoint_of_subset subset_rfl (hrest.subset hy)) (ih hrest)

end CloudProbe.Lib
