import CloudProbe.Lib.Bytes
import Mathlib.Data.List.GetD

/-!
# C code under a checker

C gives no meaning to a read outside of a buffer, and cuts a value that does not fit its variable
without a word. Here the first event of this kind ends the run with a `Fault`. A run without one is
a run of the C code in which no such event occurred.
-/

namespace CloudProbe.Lib

open List

inductive Fault where
  | read (index : ℕ)
  | wrap (value : ℤ)
deriving DecidableEq, Repr

abbrev Checked (α : Type) := Except Fault α

/-- The byte at an index of a buffer of which the first `limit` bytes may be read. -/
def load (mem : List UInt8) (limit index : ℕ) : Checked UInt8 :=
  if index < limit then
    match mem[index]? with
    | some byte => .ok byte
    | none => .error (.read index)
  else .error (.read index)

def loadBytes (mem : List UInt8) (limit index : ℕ) : ℕ → Checked (List UInt8)
  | 0 => .ok []
  | n + 1 => do
    let byte ← load mem limit index
    let bytes ← loadBytes mem limit (index + 1) n
    return byte :: bytes

def loadBe (mem : List UInt8) (limit index n : ℕ) : Checked ℕ :=
  ofBe <$> loadBytes mem limit index n

def fit16 (value : ℕ) : Checked Unit :=
  if value < 2 ^ 16 then .ok () else .error (.wrap value)

def sub (a b : ℕ) : Checked ℕ :=
  if b ≤ a then .ok (a - b) else .error (.wrap (a - b))

section Runs

variable {α β : Type}

@[simp] theorem Checked.ok_bind (a : α) (f : α → Checked β) :
    (Bind.bind (Except.ok a : Checked α) f) = f a := rfl

theorem Checked.bind_eq_ok {x : Checked α} {f : α → Checked β} {b : β} (h : x >>= f = .ok b) :
    ∃ a, x = .ok a ∧ f a = .ok b := by
  cases x with
  | error fault => cases h
  | ok a => exact ⟨a, rfl, h⟩

@[simp] theorem Checked.pure_eq (a : α) : (pure a : Checked α) = .ok a := rfl

theorem Checked.early {c : Prop} [Decidable c] {run : Checked α} {result early plain : α}
    (hearly : early = result) (h : ¬ c → run = .ok plain) :
    (if c then pure result else run) = .ok (if c then early else plain) := by
  split_ifs with hc
  · rw [hearly]
    rfl
  · exact h hc

end Runs

section Within

variable {mem : List UInt8} {limit index n : ℕ}

theorem load_eq (hlimit : limit ≤ mem.length) (h : index < limit) :
    load mem limit index = .ok ((mem.take limit).getD index 0) := by
  have hget : mem[index]? = some mem[index] := List.getElem?_eq_getElem (by omega)
  have htake : (mem.take limit).getD index 0 = mem[index] := by
    rw [getD_eq_getElem?_getD, List.getElem?_take_of_lt h, hget]
    rfl
  rw [load, if_pos h, hget, htake]

theorem load_of_drop {byte : UInt8} {t : List UInt8} (hlimit : limit ≤ mem.length)
    (h : (mem.take limit).drop index = byte :: t) : load mem limit index = .ok byte := by
  have hlength := congrArg List.length h
  rw [length_drop, length_take_of_le hlimit, length_cons] at hlength
  have hget : (mem.take limit)[index]? = some byte := by
    rw [← Nat.add_zero index, ← List.getElem?_drop, h]
    rfl
  rw [load_eq hlimit (by omega), getD_eq_getElem?_getD, hget]
  rfl

theorem loadBytes_eq (hlimit : limit ≤ mem.length) (h : index + n ≤ limit) :
    loadBytes mem limit index n = .ok (((mem.take limit).drop index).take n) := by
  induction n generalizing index with
  | zero => rfl
  | succ n ih =>
    have hlt : index < (mem.take limit).length := by
      rw [length_take_of_le hlimit]
      omega
    rw [loadBytes, load_eq hlimit (by omega), Checked.ok_bind, ih (by omega), Checked.ok_bind,
      Checked.pure_eq, drop_eq_getElem_cons hlt, take_succ_cons,
      getD_eq_getElem _ _ hlt]

theorem loadBe_eq (hlimit : limit ≤ mem.length) (h : index + n ≤ limit) :
    loadBe mem limit index n = .ok (ofBe (((mem.take limit).drop index).take n)) := by
  rw [loadBe, loadBytes_eq hlimit h]
  rfl

theorem fit16_eq {value : ℕ} (h : value < 2 ^ 16) : fit16 value = .ok () := if_pos h

theorem sub_eq {a b : ℕ} (h : b ≤ a) : sub a b = .ok (a - b) := if_pos h

end Within

end CloudProbe.Lib
