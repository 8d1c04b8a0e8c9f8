import Mathlib.Tactic.Common

/-!
# What a fallible computation returns

`Ensures x P` says that every value `x` returns has the property; an error returns none. The rules
are equivalences, so a `do` block is read off by `simp` from the left to the right.
-/

namespace CloudProbe.Lib

variable {ε ε' α β : Type}

/-- Every value that `x` returns has the property. -/
def Ensures (x : Except ε α) (P : α → Prop) : Prop := ∀ a, x = .ok a → P a

variable {x : Except ε α} {P : α → Prop} {Q : β → Prop}

@[simp] theorem ensures_ok {a : α} : Ensures (.ok a : Except ε α) P ↔ P a :=
  ⟨fun h => h a rfl, fun h _ ha => Except.ok.inj ha ▸ h⟩

@[simp] theorem ensures_pure {a : α} : Ensures (pure a : Except ε α) P ↔ P a := ensures_ok

@[simp] theorem ensures_error {e : ε} : Ensures (.error e : Except ε α) P := fun _ ha => nomatch ha

@[simp] theorem ensures_throw {e : ε} : Ensures (throw e : Except ε α) P := ensures_error

@[simp] theorem ensures_bind {f : α → Except ε β} :
    Ensures (x >>= f) Q ↔ Ensures x fun a => Ensures (f a) Q := by
  rcases x with e | a
  · exact ⟨fun _ => ensures_error, fun _ => ensures_error⟩
  · exact (ensures_ok (P := fun a => Ensures (f a) Q)).symm

@[simp] theorem ensures_mapError {f : ε → ε'} : Ensures (x.mapError f) P ↔ Ensures x P := by
  rcases x with e | a
  · exact ⟨fun _ => ensures_error, fun _ => ensures_error⟩
  · exact ensures_ok.trans ensures_ok.symm

theorem Ensures.ite {c : Prop} [Decidable c] {y : Except ε α} (hx : c → Ensures x P)
    (hy : ¬ c → Ensures y P) : Ensures (if c then x else y) P := by
  split_ifs with hc
  · exact hx hc
  · exact hy hc

theorem Ensures.check {c : Prop} [Decidable c] {e : ε} {f : α → Except ε β} {y : Except ε β}
    (hy : ¬ c → Ensures y Q) : Ensures (if c then throw e >>= f else y) Q :=
  .ite (fun _ => ensures_bind.mpr ensures_throw) hy

end CloudProbe.Lib
