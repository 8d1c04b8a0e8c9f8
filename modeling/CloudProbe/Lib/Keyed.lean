import Mathlib.Data.List.Nodup
import Mathlib.Data.List.Perm.Basic
import Mathlib.Tactic.Common

/-!
# Lists with optional keys

Elements may have a key, `key : α → Option κ`; elements without one are never found. When a list
`new` takes over the values of the elements of `old` with the same key, the values of `new` with the
values of `old` that were not taken over are a permutation of the values of `old` with the fresh
values of `new` (`perm_exchange`).
-/

namespace CloudProbe.Lib

open List

variable {α β κ : Type*} (key : α → Option κ)

def keys (l : List α) : List κ := l.filterMap key

variable {key} in
theorem mem_keys {k : κ} {l : List α} : k ∈ keys key l ↔ ∃ a ∈ l, key a = some k :=
  List.mem_filterMap

variable {key} in
theorem keys_nodup_filter {l : List α} (hl : (keys key l).Nodup) (p : α → Bool) :
    (keys key (l.filter p)).Nodup :=
  hl.sublist (List.filter_sublist.filterMap key)

variable {key} in
/-- A key stands at one place only. -/
theorem index_eq_of_key_eq {l : List α} (hl : (keys key l).Nodup) {i j : ℕ} {a b : α}
    (ha : l[i]? = some a) (hb : l[j]? = some b) {k : κ} (hak : key a = some k)
    (hbk : key b = some k) : i = j := by
  induction l generalizing i j with
  | nil => simp at ha
  | cons c l ih =>
    have htail : (keys key l).Nodup := by
      cases hc : key c with
      | none => simpa [keys, hc] using hl
      | some kc => exact (List.nodup_cons.mp (by simpa [keys, hc] using hl)).2
    have hhead : ∀ (n : ℕ) (x : α), l[n]? = some x → key x = some k → key c ≠ some k := by
      intro n x hx hxk hck
      have hnot : k ∉ keys key l :=
        (List.nodup_cons.mp (by simpa [keys, hck] using hl)).1
      exact hnot (mem_keys.mpr ⟨x, List.mem_of_getElem? hx, hxk⟩)
    cases i with
    | zero =>
      cases j with
      | zero => rfl
      | succ j =>
        simp only [List.getElem?_cons_zero, Option.some.injEq] at ha
        rw [List.getElem?_cons_succ] at hb
        subst ha
        exact absurd hak (hhead j b hb hbk)
    | succ i =>
      rw [List.getElem?_cons_succ] at ha
      cases j with
      | zero =>
        simp only [List.getElem?_cons_zero, Option.some.injEq] at hb
        subst hb
        exact absurd hbk (hhead i a ha hak)
      | succ j =>
        rw [List.getElem?_cons_succ] at hb
        rw [ih htail ha hb]

variable {key} in
theorem eq_of_key_eq {l : List α} (hl : (keys key l).Nodup) {a b : α} (ha : a ∈ l) (hb : b ∈ l)
    {k : κ} (hak : key a = some k) (hbk : key b = some k) : a = b := by
  obtain ⟨i, hi⟩ := List.mem_iff_getElem?.mp ha
  obtain ⟨j, hj⟩ := List.mem_iff_getElem?.mp hb
  rw [index_eq_of_key_eq hl hi hj hak hbk] at hi
  exact Option.some.inj (hi.symm.trans hj)

variable [DecidableEq κ]

def findKey (k : κ) (l : List α) : Option α := l.find? fun a => key a = some k

def keyIn (l : List α) (a : α) : Bool :=
  match key a with
  | some k => (findKey key k l).isSome
  | none => false

variable {key}

theorem findKey_some {k : κ} {l : List α} {a : α} (h : findKey key k l = some a) :
    a ∈ l ∧ key a = some k := by
  refine ⟨mem_of_find?_eq_some h, ?_⟩
  simpa using List.find?_some h

theorem findKey_eq_none {k : κ} {l : List α} : findKey key k l = none ↔ k ∉ keys key l := by
  rw [findKey, List.find?_eq_none, mem_keys]
  simp

theorem findKey_isSome {k : κ} {l : List α} : (findKey key k l).isSome = true ↔ k ∈ keys key l := by
  rw [← Option.ne_none_iff_isSome, ne_eq, findKey_eq_none, not_not]

theorem keyIn_iff {l : List α} {a : α} :
    keyIn key l a = true ↔ ∃ k, key a = some k ∧ k ∈ keys key l := by
  unfold keyIn
  cases hk : key a with
  | none => simp
  | some k => simp [findKey_isSome]

theorem findKey_of_mem {l : List α} (hl : (keys key l).Nodup) {a : α} (ha : a ∈ l) {k : κ}
    (hk : key a = some k) : findKey key k l = some a := by
  cases hf : findKey key k l with
  | none => exact absurd (mem_keys.mpr ⟨a, ha, hk⟩) (findKey_eq_none.mp hf)
  | some b =>
    obtain ⟨hb, hbk⟩ := findKey_some hf
    rw [eq_of_key_eq hl hb ha hbk hk]

/-! ### Exchange -/

/-- What is found by its key has the old value. -/
theorem map_filter_keyIn {old l : List α} {value : α → β} (hold : (keys key old).Nodup)
    (hvalue : ∀ a ∈ l, ∀ o ∈ old, ∀ k, key o = some k → key a = some k → value a = value o)
    {p : α → Bool} (hp : ∀ a ∈ l, p a = true → ∃ k, key a = some k ∧ k ∈ keys key old) :
    (l.filter p).map (some ∘ value) =
      (keys key (l.filter p)).map fun k => (findKey key k old).map value := by
  induction l with
  | nil => rfl
  | cons a l ih =>
    have ih' := ih (fun x hx => hvalue x (List.mem_cons_of_mem a hx))
      (fun x hx => hp x (List.mem_cons_of_mem a hx))
    by_cases hpa : p a = true
    · obtain ⟨k, hk, hmem⟩ := hp a List.mem_cons_self hpa
      obtain ⟨o, ho, hok⟩ := mem_keys.mp hmem
      rw [List.filter_cons_of_pos hpa, map_cons, ih']
      simp only [keys, filterMap_cons, hk, map_cons]
      rw [findKey_of_mem hold ho hok, Option.map_some, Function.comp_apply,
        hvalue a List.mem_cons_self o ho k hok hk]
    · rw [List.filter_cons_of_neg hpa]
      exact ih'

/-- The two lists have the same values at the keys they share. -/
theorem perm_common {old new : List α} {value : α → β} (hold : (keys key old).Nodup)
    (hnew : (keys key new).Nodup)
    (hvalue : ∀ a ∈ new, ∀ o ∈ old, ∀ k, key o = some k → key a = some k → value a = value o) :
    ((new.filter (keyIn key old)).map value).Perm ((old.filter (keyIn key new)).map value) := by
  have hsame : ∀ a ∈ old, ∀ o ∈ old, ∀ k, key o = some k → key a = some k →
      value a = value o := by
    intro a ha o ho k hok hak
    rw [eq_of_key_eq hold ha ho hak hok]
  have hleft := map_filter_keyIn (l := new) (p := keyIn key old) hold hvalue
    (fun a _ hp => keyIn_iff.mp hp)
  have hright := map_filter_keyIn (l := old) (p := keyIn key new) hold hsame
    (fun a ha hp => by
      obtain ⟨k, hk, -⟩ := keyIn_iff.mp hp
      exact ⟨k, hk, mem_keys.mpr ⟨a, ha, hk⟩⟩)
  have hkeys : (keys key (new.filter (keyIn key old))).Perm
      (keys key (old.filter (keyIn key new))) := by
    rw [List.perm_ext_iff_of_nodup (keys_nodup_filter hnew _) (keys_nodup_filter hold _)]
    intro k
    simp only [mem_keys, mem_filter, keyIn_iff]
    constructor
    · rintro ⟨a, ⟨ha, k', hk', o, ho, hok⟩, hak⟩
      obtain rfl : k = k' := Option.some.inj (hak.symm.trans hk')
      exact ⟨o, ⟨ho, k, hok, a, ha, hak⟩, hok⟩
    · rintro ⟨o, ⟨ho, k', hk', a, ha, hak⟩, hok⟩
      obtain rfl : k = k' := Option.some.inj (hok.symm.trans hk')
      exact ⟨a, ⟨ha, k, hak, o, ho, hok⟩, hak⟩
  have hsome : ((new.filter (keyIn key old)).map (some ∘ value)).Perm
      ((old.filter (keyIn key new)).map (some ∘ value)) := by
    rw [hleft, hright]
    exact hkeys.map _
  rw [← List.map_map, ← List.map_map] at hsome
  exact (map_perm_map_iff fun _ _ h => Option.some.inj h).mp hsome

/-- **Exchange.** `new` and what of `old` it did not take over are together `old` and what is fresh
in `new`. -/
theorem perm_exchange {old new : List α} {value : α → β} (hold : (keys key old).Nodup)
    (hnew : (keys key new).Nodup)
    (hvalue : ∀ a ∈ new, ∀ o ∈ old, ∀ k, key o = some k → key a = some k → value a = value o) :
    (new.map value ++ (old.filter fun o => !keyIn key new o).map value).Perm
      (old.map value ++ (new.filter fun a => !keyIn key old a).map value) := by
  have hsplit (l : List α) (p : α → Bool) :
      (l.map value).Perm ((l.filter p).map value ++ (l.filter fun a => !p a).map value) := by
    rw [← List.map_append]
    exact (filter_append_perm p l).symm.map value
  calc new.map value ++ (old.filter fun o => !keyIn key new o).map value
      ~ ((new.filter (keyIn key old)).map value ++
          (new.filter fun a => !keyIn key old a).map value) ++
          (old.filter fun o => !keyIn key new o).map value :=
        (hsplit new _).append_right _
    _ ~ ((old.filter (keyIn key new)).map value ++
          (new.filter fun a => !keyIn key old a).map value) ++
          (old.filter fun o => !keyIn key new o).map value :=
        ((perm_common hold hnew hvalue).append_right _).append_right _
    _ ~ ((old.filter (keyIn key new)).map value ++
          (old.filter fun o => !keyIn key new o).map value) ++
          (new.filter fun a => !keyIn key old a).map value := by
        rw [List.append_assoc, List.append_assoc]
        exact perm_append_comm.append_left _
    _ ~ old.map value ++ (new.filter fun a => !keyIn key old a).map value :=
        (hsplit old _).symm.append_right _

end CloudProbe.Lib
