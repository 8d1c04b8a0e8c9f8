import Mathlib.Data.List.Count
import Mathlib.Data.List.Nodup
import Mathlib.Data.List.Perm.Subperm
import Mathlib.Data.Multiset.Basic
import Mathlib.Tactic.Common

/-!
# Numbering equal elements

Each element of a list gets the number of equal elements before it (`numbered`). Which numbers an
element gets depends only on how often it occurs, so the numbering does not depend on the order, and
more elements, in any order, keep the numbers given before (`numbered_subperm`).
-/

namespace CloudProbe.Lib

open List

variable {κ : Type*} [DecidableEq κ]

/-- The elements of a list that come after those `seen`, each with the number of its equals
before. -/
def numbered (seen : List κ) : List κ → List (κ × ℕ)
  | [] => []
  | k :: rest => (k, seen.count k) :: numbered (k :: seen) rest

theorem mem_numbered {seen l : List κ} {k : κ} {n : ℕ} :
    (k, n) ∈ numbered seen l ↔ seen.count k ≤ n ∧ n < seen.count k + l.count k := by
  induction l generalizing seen with
  | nil =>
    simp only [numbered, not_mem_nil, count_nil, false_iff]
    omega
  | cons a rest ih =>
    rw [numbered, mem_cons, ih, Prod.mk.injEq]
    by_cases hk : k = a
    · subst hk
      rw [count_cons_self, count_cons_self, eq_self_iff_true, true_and]
      omega
    · rw [count_cons_of_ne (Ne.symm hk), count_cons_of_ne (Ne.symm hk)]
      simp [hk]

theorem nodup_numbered (seen l : List κ) : (numbered seen l).Nodup := by
  induction l generalizing seen with
  | nil => exact nodup_nil
  | cons a rest ih =>
    refine nodup_cons.mpr ⟨fun hmem => ?_, ih _⟩
    have hlow := (mem_numbered.mp hmem).1
    rw [count_cons_self] at hlow
    omega

@[simp] theorem map_fst_numbered (seen l : List κ) : (numbered seen l).map Prod.fst = l := by
  induction l generalizing seen with
  | nil => rfl
  | cons a rest ih => rw [numbered, map_cons, ih]

/-- **More elements, more numbers**: the numbering of a part is a part of the numbering. -/
theorem numbered_subperm {l l' : List κ} (h : l.Subperm l') :
    (numbered [] l).Subperm (numbered [] l') := by
  apply (nodup_numbered [] l).subperm
  rintro ⟨k, n⟩ hmem
  rw [mem_numbered] at hmem ⊢
  have hcount := h.count_le k
  omega

end CloudProbe.Lib
