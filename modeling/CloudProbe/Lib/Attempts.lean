import Mathlib.Data.Nat.Find
import Mathlib.Order.Basic
import Mathlib.Tactic.Common

/-!
# Repeated attempts against outcomes the machine does not control

A machine `step : σ → ω → σ` is given a stream of outcomes, one for each attempt. Whether it ever
reaches its goal depends on the stream alone once its states are sorted into those that wait for
their first usable outcome and those from which nothing helps.

* **The state after `n` attempts** (`feed`) and the rule for what every attempt keeps
  (`feed_keeps`).
* **Waiting machines** (`Waiting`): an outcome that is not usable leaves the machine waiting, the
  first usable one decides.
* **When the goal is reached** (`Waiting.exists_goal_iff`, `not_exists_goal_of_stuck`).
-/

namespace CloudProbe.Lib

variable {σ ω : Type*}

/-- The state after the first `n` outcomes of a stream. -/
def feed (step : σ → ω → σ) (s : σ) (o : ℕ → ω) : ℕ → σ
  | 0 => s
  | n + 1 => step (feed step s o n) (o n)

variable {step : σ → ω → σ} {s : σ} {o : ℕ → ω}

theorem feed_keeps {I : σ → Prop} {m n : ℕ} (hmn : m ≤ n) (hm : I (feed step s o m))
    (hstep : ∀ k, m ≤ k → k < n → I (feed step s o k) → I (step (feed step s o k) (o k))) :
    I (feed step s o n) := by
  induction n, hmn using Nat.le_induction with
  | base => exact hm
  | succ n hmn ih =>
    apply hstep n hmn n.lt_succ_self
    apply ih
    intro k hmk hkn
    exact hstep k hmk (hkn.trans n.lt_succ_self)

/-- **A machine that waits for a usable outcome.** In a state of `W` an outcome that is not usable
(`p`) leaves the machine waiting, and the goal `G` then holds exactly when `r` does; the first
usable outcome reaches the goal when it is good (`q`) and leads to the stuck states `D` otherwise.
`A` is what may be assumed of every attempt. -/
structure Waiting (step : σ → ω → σ) (A : σ → ω → Prop) (W D : σ → Prop) (G : σ → ω → Prop)
    (p q r : ω → Prop) : Prop where
  wait : ∀ s w, A s w → W s → ¬ p w → W (step s w) ∧ (G (step s w) w ↔ r w)
  act : ∀ s w, A s w → W s → p w → q w → G (step s w) w
  miss : ∀ s w, A s w → W s → p w → ¬ q w → D (step s w) ∧ ¬ G (step s w) w
  stuck : ∀ s w, A s w → D s → D (step s w) ∧ ¬ G (step s w) w

variable {A : σ → ω → Prop} {W D : σ → Prop} {G : σ → ω → Prop} {p q r : ω → Prop}

theorem Waiting.waits (h : Waiting step A W D G p q r) (hA : ∀ k, A (feed step s o k) (o k))
    (hs : W s) {n : ℕ} (hnone : ∀ k < n, ¬ p (o k)) : W (feed step s o n) := by
  apply feed_keeps n.zero_le hs
  intro k _ hkn hW
  exact (h.wait _ _ (hA k) hW (hnone k hkn)).1

theorem not_goal_of_stuck (hstuck : ∀ s w, A s w → D s → D (step s w) ∧ ¬ G (step s w) w)
    (hA : ∀ k, A (feed step s o k) (o k)) {m n : ℕ} (hmn : m ≤ n) (hm : D (feed step s o m)) :
    ¬ G (feed step s o (n + 1)) (o n) := by
  have hn : D (feed step s o n) := by
    apply feed_keeps hmn hm
    intro k _ _ hD
    exact (hstuck _ _ (hA k) hD).1
  exact (hstuck _ _ (hA n) hn).2

theorem not_exists_goal_of_stuck (hstuck : ∀ s w, A s w → D s → D (step s w) ∧ ¬ G (step s w) w)
    (hA : ∀ k, A (feed step s o k) (o k)) (hs : D s) :
    ¬ ∃ n, G (feed step s o (n + 1)) (o n) := by
  rintro ⟨n, hG⟩
  exact not_goal_of_stuck hstuck hA n.zero_le hs hG

/-- **When a waiting machine reaches its goal**: some attempt is good with none usable before, or
finds the goal already met. -/
theorem Waiting.exists_goal_iff (h : Waiting step A W D G p q r)
    (hA : ∀ k, A (feed step s o k) (o k)) (hs : W s) :
    (∃ n, G (feed step s o (n + 1)) (o n)) ↔
      ∃ n, (∀ k < n, ¬ p (o k)) ∧ (p (o n) → q (o n)) ∧ (¬ p (o n) → r (o n)) := by
  classical
  constructor
  · rintro ⟨n, hG⟩
    by_cases husable : ∃ k, p (o k)
    · -- the attempt that decides is the first usable one, unless the goal was met before it
      obtain ⟨k, hk⟩ : ∃ k, k = Nat.find husable := ⟨_, rfl⟩
      have hpk : p (o k) := hk ▸ Nat.find_spec husable
      have hnone : ∀ j < k, ¬ p (o j) := fun j hj => Nat.find_min husable (hk ▸ hj)
      rcases Nat.lt_or_ge n k with hnk | hkn
      · have hW := h.waits hA hs fun j hj => hnone j (hj.trans hnk)
        have hr := (h.wait _ _ (hA n) hW (hnone n hnk)).2.mp hG
        exact ⟨n, fun j hj => hnone j (hj.trans hnk), fun hp => absurd hp (hnone n hnk),
          fun _ => hr⟩
      · refine ⟨k, hnone, fun _ => ?_, fun hp => absurd hpk hp⟩
        by_contra hq
        obtain ⟨hD, hnot⟩ := h.miss _ _ (hA k) (h.waits hA hs hnone) hpk hq
        rcases hkn.eq_or_lt with rfl | hlt
        · exact hnot hG
        · exact not_goal_of_stuck h.stuck hA hlt hD hG
    · have hnone : ∀ k, ¬ p (o k) := fun k hp => husable ⟨k, hp⟩
      have hW := h.waits hA hs fun k (_ : k < n) => hnone k
      have hr := (h.wait _ _ (hA n) hW (hnone n)).2.mp hG
      exact ⟨n, fun k _ => hnone k, fun hp => absurd hp (hnone n), fun _ => hr⟩
  · rintro ⟨n, hnone, hq, hr⟩
    refine ⟨n, ?_⟩
    have hW := h.waits hA hs hnone
    by_cases hp : p (o n)
    · exact h.act _ _ (hA n) hW hp (hq hp)
    · exact (h.wait _ _ (hA n) hW hp).2.mpr (hr hp)

end CloudProbe.Lib
