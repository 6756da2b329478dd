import Mathlib.Logic.Function.Iterate
import Mathlib.Tactic

/-!
# Repeating a round

A deterministic round that is repeated from a state. Either a measure falls in every round until the goal
is met, or a set of states that excludes the goal is never left.

Main results:

* `Rounds.reaches` — an invariant and a falling measure bring every start to the goal.
* `Rounds.never` — a closed set that excludes the goal keeps every start away from it.
-/

namespace Rounds

variable {σ : Type*} {round : σ → σ} {Inv Goal : σ → Prop}

/-- **Reaching a goal.** -/
theorem reaches {μ : σ → ℕ}
    (hround : ∀ s, Inv s → Goal s ∨ Inv (round s) ∧ μ (round s) < μ s) {s : σ} (hs : Inv s) :
    ∃ n, Goal (round^[n] s) := by
  induction hμ : μ s using Nat.strongRecOn generalizing s with
  | ind k ih =>
    rcases hround s hs with hgoal | ⟨hinv, hless⟩
    · exact ⟨0, hgoal⟩
    · obtain ⟨n, hn⟩ := ih (μ (round s)) (by omega) hinv rfl
      exact ⟨n + 1, hn⟩

/-- **Staying away from a goal.** -/
theorem never (hround : ∀ s, Inv s → ¬ Goal s ∧ Inv (round s)) {s : σ} (hs : Inv s) (n : ℕ) :
    ¬ Goal (round^[n] s) := by
  induction n generalizing s with
  | zero => exact (hround s hs).1
  | succ n ih => exact ih (hround s hs).2

end Rounds
