import Mathlib.Data.List.Basic
import Mathlib.Tactic.Common

/-!
# Words ended by a separator

A list of words is written as one word by ending each of them with a separator. When no word has the
separator in it, the list can be read back (`terminated_inj`), also without the last separator. A
stream is read into `segments`; read in two parts it is read as a whole (`segments_append`).
-/

namespace CloudProbe.Lib

open List

variable {α : Type*} {sep : α}

def terminated (sep : α) (words : List (List α)) : List α := words.flatMap (· ++ [sep])

@[simp] theorem terminated_nil : terminated sep [] = [] := rfl

@[simp] theorem terminated_cons (w : List α) (words : List (List α)) :
    terminated sep (w :: words) = w ++ sep :: terminated sep words := by
  simp [terminated]

@[simp] theorem terminated_append (words words' : List (List α)) :
    terminated sep (words ++ words') = terminated sep words ++ terminated sep words' :=
  flatMap_append

theorem append_sep_inj {u v r s : List α} (hu : sep ∉ u) (hv : sep ∉ v)
    (h : u ++ sep :: r = v ++ sep :: s) : u = v ∧ r = s := by
  induction u generalizing v with
  | nil =>
    rcases v with _ | ⟨b, v⟩
    · exact ⟨rfl, (List.cons.inj h).2⟩
    · exact absurd (mem_cons.mpr (.inl (List.cons.inj h).1)) hv
  | cons a u ih =>
    rcases v with _ | ⟨b, v⟩
    · exact absurd (mem_cons.mpr (.inl (List.cons.inj h).1.symm)) hu
    · obtain ⟨rfl, htail⟩ := List.cons.inj h
      have hu' : sep ∉ u := fun hmem => hu (mem_cons_of_mem a hmem)
      have hv' : sep ∉ v := fun hmem => hv (mem_cons_of_mem a hmem)
      obtain ⟨rfl, hrest⟩ := ih hu' hv' htail
      exact ⟨rfl, hrest⟩

variable {words : List (List α)}

theorem terminated_inj {words' : List (List α)} (hw : ∀ w ∈ words, sep ∉ w)
    (hw' : ∀ w ∈ words', sep ∉ w) (h : terminated sep words = terminated sep words') :
    words = words' := by
  induction words generalizing words' with
  | nil =>
    rcases words' with _ | ⟨v, words'⟩
    · rfl
    · simp at h
  | cons w words ih =>
    rcases words' with _ | ⟨v, words'⟩
    · simp at h
    · rw [terminated_cons, terminated_cons] at h
      obtain ⟨rfl, htail⟩ := append_sep_inj (hw w (by simp)) (hw' v (by simp)) h
      rw [ih (fun x hx => hw x (by simp [hx])) (fun x hx => hw' x (by simp [hx])) htail]

theorem getLast?_terminated (h : words ≠ []) :
    (terminated sep words).getLast? = some sep := by
  obtain ⟨front, w, rfl⟩ := eq_nil_or_concat words |>.resolve_left h
  simp [List.getLast?_append]

theorem dropLast_terminated_inj {words' : List (List α)} (hw : ∀ w ∈ words, sep ∉ w)
    (hw' : ∀ w ∈ words', sep ∉ w) (hne : words ≠ []) (hne' : words' ≠ [])
    (h : (terminated sep words).dropLast = (terminated sep words').dropLast) : words = words' := by
  apply terminated_inj hw hw'
  have hback := fun {l : List (List α)} (hl : l ≠ []) =>
    dropLast_append_getLast? sep (getLast?_terminated hl)
  rw [← hback hne, ← hback hne', h]

/-! ## Reading a stream -/

variable [DecidableEq α]

/-- The words of a stream that are ended by the separator, and what is behind the last one. -/
def segments (sep : α) : List α → List (List α) × List α
  | [] => ([], [])
  | c :: s =>
    if c = sep then ([] :: (segments sep s).1, (segments sep s).2)
    else
      match (segments sep s).1 with
      | [] => ([], c :: (segments sep s).2)
      | w :: words => ((c :: w) :: words, (segments sep s).2)

theorem segments_of_notMem {s : List α} (h : sep ∉ s) : segments sep s = ([], s) := by
  induction s with
  | nil => rfl
  | cons c s ih =>
    simp only [mem_cons, not_or] at h
    rw [segments, if_neg (Ne.symm h.1), ih h.2]

theorem segments_word {w : List α} (h : sep ∉ w) (s : List α) :
    segments sep (w ++ sep :: s) = (w :: (segments sep s).1, (segments sep s).2) := by
  induction w with
  | nil => rw [nil_append, segments, if_pos rfl]
  | cons c w ih =>
    simp only [mem_cons, not_or] at h
    rw [cons_append, segments, if_neg (Ne.symm h.1), ih h.2]

/-- The words and the rest make up the stream. -/
theorem segments_spec (sep : α) (s : List α) :
    s = terminated sep (segments sep s).1 ++ (segments sep s).2 ∧
      (∀ w ∈ (segments sep s).1, sep ∉ w) ∧ sep ∉ (segments sep s).2 := by
  induction s with
  | nil => simp [segments]
  | cons c s ih =>
    obtain ⟨heq, hwords, hrest⟩ := ih
    by_cases hc : c = sep
    · rw [segments, if_pos hc]
      refine ⟨?_, ?_, hrest⟩
      · rw [terminated_cons, nil_append, cons_append, ← heq, hc]
      · simpa using hwords
    · rw [segments, if_neg hc]
      cases hseg : (segments sep s).1 with
      | nil =>
        rw [hseg, terminated_nil, nil_append] at heq
        refine ⟨?_, by simp, ?_⟩
        · rw [terminated_nil, nil_append, ← heq]
        · simp [Ne.symm hc, hrest]
      | cons w words =>
        rw [hseg] at heq hwords
        refine ⟨?_, ?_, hrest⟩
        · rw [terminated_cons, cons_append, cons_append, ← terminated_cons, ← heq]
        · simp only [forall_mem_cons] at hwords ⊢
          exact ⟨by simp [Ne.symm hc, hwords.1], hwords.2⟩

theorem segments_terminated_append (h : ∀ w ∈ words, sep ∉ w) (s : List α) :
    segments sep (terminated sep words ++ s) =
      (words ++ (segments sep s).1, (segments sep s).2) := by
  induction words with
  | nil => rfl
  | cons w words ih =>
    simp only [forall_mem_cons] at h
    rw [terminated_cons, append_assoc, cons_append, segments_word h.1, ih h.2, cons_append]

/-- **A stream in two parts**: the words of the first, and those of what it leaves and the second.
-/
theorem segments_append (s t : List α) :
    segments sep (s ++ t) =
      ((segments sep s).1 ++ (segments sep ((segments sep s).2 ++ t)).1,
        (segments sep ((segments sep s).2 ++ t)).2) := by
  obtain ⟨heq, hwords, -⟩ := segments_spec sep s
  conv_lhs => rw [heq]
  rw [append_assoc, segments_terminated_append hwords]

end CloudProbe.Lib
