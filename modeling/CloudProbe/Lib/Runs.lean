import Mathlib.Logic.Basic

/-!
# Runs of a system given by an executable step function

`step s a : Option σ` is the state after the action `a`, and `none` when `a` is not enabled in `s`.
Nondeterminism is carried by the actions, so a run is determined by its list of actions.

* **The invariant rule** (`exec_invariant`, `exec_invariant_of_guard`): what every enabled step
  keeps holds at the end of every run; backwards it is `guarded_of_exec`.
* **Projection** (`exec_project`): when every step of one system is a step of another, or leaves
  the other's state alone, every run of the first is a run of the second.
* **Outputs** (`outputs`, `append_outputs`, `pairwise_outputs`): what a system whose steps are
  always enabled puts out along its inputs.
-/

namespace CloudProbe.Lib

open List

variable {σ τ α β : Type*}

/-- The state after a list of actions, `none` when one of them is not enabled. -/
def exec (step : σ → α → Option σ) : σ → List α → Option σ
  | s, [] => some s
  | s, a :: as => (step s a).bind fun s' => exec step s' as

variable (step : σ → α → Option σ)

@[simp] theorem exec_nil (s : σ) : exec step s [] = some s := rfl

variable {s : σ} {as : List α} {t : σ} {P : σ → Prop} {G : σ → α → Prop}

theorem exec_cons_eq_some {a : α} :
    exec step s (a :: as) = some t ↔ ∃ s', step s a = some s' ∧ exec step s' as = some t := by
  simp only [exec]
  exact Option.bind_eq_some_iff

theorem exec_append_eq_some {bs : List α} :
    exec step s (as ++ bs) = some t ↔
      ∃ u, exec step s as = some u ∧ exec step u bs = some t := by
  induction as generalizing s with
  | nil => simp
  | cons a as ih =>
    rw [cons_append, exec_cons_eq_some]
    constructor
    · rintro ⟨s', hs', h⟩
      obtain ⟨u, hu, ht⟩ := ih.mp h
      exact ⟨u, (exec_cons_eq_some step).mpr ⟨s', hs', hu⟩, ht⟩
    · rintro ⟨u, hu, ht⟩
      obtain ⟨s', hs', hu'⟩ := (exec_cons_eq_some step).mp hu
      exact ⟨s', hs', ih.mpr ⟨u, hu', ht⟩⟩

variable {step}

/-- **The invariant rule.** A predicate kept by every enabled step holds at the end of every run. -/
theorem exec_invariant (hstep : ∀ s a s', P s → step s a = some s' → P s') (hs : P s)
    (h : exec step s as = some t) : P t := by
  induction as generalizing s with
  | nil => cases h; exact hs
  | cons a as ih =>
    obtain ⟨s', hs', h'⟩ := (exec_cons_eq_some step).mp h
    exact ih (hstep s a s' hs hs') h'

/-- Every step of a run meets `G`, a condition on the state before the step and the action. -/
def Guarded (step : σ → α → Option σ) (G : σ → α → Prop) : σ → List α → Prop
  | _, [] => True
  | s, a :: as => G s a ∧ ∀ s', step s a = some s' → Guarded step G s' as

instance Guarded.decidable (step : σ → α → Option σ) (G : σ → α → Prop)
    [∀ s a, Decidable (G s a)] : ∀ s as, Decidable (Guarded step G s as)
  | _, [] => isTrue trivial
  | s, a :: as =>
    match h : step s a with
    | none => decidable_of_iff (G s a) (by simp [Guarded, h])
    | some s' =>
      have := Guarded.decidable step G s' as
      decidable_of_iff (G s a ∧ Guarded step G s' as) (by simp [Guarded, h])

theorem exec_invariant_of_guard (hstep : ∀ s a s', P s → G s a → step s a = some s' → P s')
    (hs : P s) (hG : Guarded step G s as) (h : exec step s as = some t) : P t := by
  induction as generalizing s with
  | nil => cases h; exact hs
  | cons a as ih =>
    obtain ⟨s', hs', h'⟩ := (exec_cons_eq_some step).mp h
    exact ih (hstep s a s' hs hG.1 hs') (hG.2 s' hs') h'

/-- A run is guarded when every step of it is. -/
theorem guarded_iff :
    Guarded step G s as ↔
      ∀ bs a cs t, as = bs ++ a :: cs → exec step s bs = some t → G t a := by
  induction as generalizing s with
  | nil =>
    refine ⟨fun _ bs a cs t h => ?_, fun _ => trivial⟩
    cases bs <;> cases h
  | cons b as ih =>
    constructor
    · rintro ⟨hb, hrest⟩ bs a cs t heq ht
      cases bs with
      | nil =>
        obtain ⟨rfl, rfl⟩ := List.cons.inj heq
        cases ht
        exact hb
      | cons b' bs =>
        obtain ⟨rfl, htail⟩ := List.cons.inj heq
        obtain ⟨s', hs', ht'⟩ := (exec_cons_eq_some step).mp ht
        exact ih.mp (hrest s' hs') bs a cs t htail ht'
    · intro h
      refine ⟨h [] b as s rfl rfl, fun s' hs' => ih.mpr fun bs a cs t heq ht => ?_⟩
      exact h (b :: bs) a cs t (congrArg (b :: ·) heq)
        ((exec_cons_eq_some step).mpr ⟨s', hs', ht⟩)

theorem Guarded.of_append {bs : List α} (h : Guarded step G s (as ++ bs)) :
    Guarded step G s as := by
  refine guarded_iff.mpr fun as₁ a as₂ t heq ht => ?_
  refine guarded_iff.mp h as₁ a (as₂ ++ bs) t ?_ ht
  rw [heq, append_assoc, cons_append]

/-- **The rule backwards.** When what holds after a step makes it meet the guard and held before it,
the run meets the guard. -/
theorem guarded_of_exec {I : σ → Prop} (hinv : ∀ s a s', I s → step s a = some s' → I s')
    (hback : ∀ s a s', I s → step s a = some s' → P s' → G s a ∧ P s) (hs : I s)
    (h : exec step s as = some t) (ht : P t) :
    Guarded step G s as ∧ P s := by
  induction as generalizing s with
  | nil =>
    cases h
    exact ⟨trivial, ht⟩
  | cons a as ih =>
    obtain ⟨s', hs', h'⟩ := (exec_cons_eq_some step).mp h
    obtain ⟨hrest, hnext⟩ := ih (hinv s a s' hs hs') h'
    obtain ⟨hG, hP⟩ := hback s a s' hs hs' hnext
    refine ⟨⟨hG, fun u hu => ?_⟩, hP⟩
    rw [hs'] at hu
    cases hu
    exact hrest

/-- **Projection.** If every step of `step` is, under `proj`, a step of `step'` or no change, then a
run of `step` projects to a run of `step'`. -/
theorem exec_project {step' : τ → β → Option τ} {proj : σ → τ}
    (hstep : ∀ s a s', step s a = some s' →
      proj s' = proj s ∨ ∃ b, step' (proj s) b = some (proj s')) (h : exec step s as = some t) :
    ∃ bs, exec step' (proj s) bs = some (proj t) := by
  induction as generalizing s with
  | nil => cases h; exact ⟨[], rfl⟩
  | cons a as ih =>
    obtain ⟨s', hs', h'⟩ := (exec_cons_eq_some step).mp h
    obtain ⟨bs, hbs⟩ := ih h'
    rcases hstep s a s' hs' with heq | ⟨b, hb⟩
    · exact ⟨bs, heq ▸ hbs⟩
    · exact ⟨b :: bs, (exec_cons_eq_some step').mpr ⟨proj s', hb, hbs⟩⟩

/-! ## Outputs -/

/-- What the steps put out along a list of inputs. -/
def outputs (next : σ → α → σ) (out : σ → α → List β) : σ → List α → List β
  | _, [] => []
  | s, a :: as => out s a ++ outputs next out (next s a) as

theorem outputs_eq_map {next : σ → α → σ} {out : σ → α → List β} {out' : σ → α → List τ} {f : τ → β}
    (hnext : ∀ s a, P s → P (next s a)) (hout : ∀ s a, P s → out s a = (out' s a).map f) (hs : P s)
    (as : List α) :
    outputs next out s as = (outputs next out' s as).map f := by
  induction as generalizing s with
  | nil => rfl
  | cons a as ih =>
    rw [outputs, outputs, map_append, hout s a hs, ih (hnext s a hs)]

section outputs

variable {next : σ → α → σ} {out : σ → α → List β} {P : σ → Prop}

theorem append_outputs {f : σ → List β} (hnext : ∀ s a, P s → P (next s a))
    (hf : ∀ s a, P s → f (next s a) = f s ++ out s a) {s : σ} (hs : P s) (as : List α) :
    f (as.foldl next s) = f s ++ outputs next out s as := by
  induction as generalizing s with
  | nil => rw [outputs, foldl_nil, append_nil]
  | cons a as ih =>
    rw [foldl_cons, ih (hnext s a hs), hf s a hs, outputs, append_assoc]

/-- **A rule for pairs of outputs**; `A` says what may still come out. -/
theorem pairwise_outputs {R : β → β → Prop} {A : σ → β → Prop}
    (hnext : ∀ s a, P s → P (next s a))
    (hout : ∀ s a, P s → (out s a).Pairwise R ∧ ∀ b ∈ out s a, A s b)
    (hlater : ∀ s a, P s → ∀ b, A (next s a) b → A s b ∧ ∀ b' ∈ out s a, R b' b)
    {s : σ} (hs : P s) (as : List α) :
    (outputs next out s as).Pairwise R ∧ ∀ b ∈ outputs next out s as, A s b := by
  induction as generalizing s with
  | nil => exact ⟨List.Pairwise.nil, fun b hb => absurd hb not_mem_nil⟩
  | cons a as ih =>
    obtain ⟨hrest, hallowed⟩ := ih (hnext s a hs)
    obtain ⟨hnow, hmay⟩ := hout s a hs
    rw [outputs]
    refine ⟨pairwise_append.mpr ⟨hnow, hrest, fun b hb b' hb' => ?_⟩, fun b hb => ?_⟩
    · exact (hlater s a hs b' (hallowed b' hb')).2 b hb
    · rcases mem_append.mp hb with hb | hb
      · exact hmay b hb
      · exact (hlater s a hs b (hallowed b hb)).1

end outputs

end CloudProbe.Lib
