import Mathlib.Logic.Relation
import Mathlib.Tactic

/-!
# Transition systems

A transition system is a relation between states; the states it gets to from `s₀` are those
with `Relation.ReflTransGen step s₀ s`.  There is a rule for what holds in all of them
(`invariant`), one for getting to a state of some kind (`exists_final`), and one for the length of
runs (`length_le_measure`).
-/

namespace Transition

variable {σ : Type*} {step : σ → σ → Prop} {s₀ s : σ}

/-- What holds at first and is kept by every step holds in every state the system gets to. -/
theorem invariant (inv : σ → Prop) (h₀ : inv s₀) (hstep : ∀ s s', inv s → step s s' → inv s')
    (h : Relation.ReflTransGen step s₀ s) : inv s := by
  induction h with
  | refl => exact h₀
  | tail _ hlast ih => exact hstep _ _ ih hlast

/-- As long as there is a step that brings the measure down, the system gets to its end. -/
theorem exists_final (inv final : σ → Prop) (measure : σ → ℕ)
    (hstep : ∀ s, inv s → ¬ final s → ∃ s', step s s' ∧ inv s' ∧ measure s' < measure s)
    (h : inv s) : ∃ s', Relation.ReflTransGen step s s' ∧ final s' := by
  induction hm : measure s using Nat.strong_induction_on generalizing s with
  | _ m ih =>
    by_cases hfinal : final s
    · exact ⟨s, .refl, hfinal⟩
    · obtain ⟨s₁, hs₁, hinv, hlt⟩ := hstep s h hfinal
      obtain ⟨s', hrun, hend⟩ := ih (measure s₁) (hm ▸ hlt) hinv rfl
      exact ⟨s', .head hs₁ hrun, hend⟩

/-- A run is not longer than the measure at its beginning if every step brings it down. -/
theorem length_le_measure (inv : σ → Prop) (measure : σ → ℕ)
    (hstep : ∀ s s', inv s → step s s' → inv s' ∧ measure s' < measure s) {run : ℕ → σ} {n : ℕ}
    (hrun : ∀ i < n, step (run i) (run (i + 1))) (h : inv (run 0)) : n ≤ measure (run 0) := by
  have hsum : ∀ i ≤ n, inv (run i) ∧ i + measure (run i) ≤ measure (run 0) := by
    intro i
    induction i with
    | zero => exact fun _ => ⟨h, (Nat.zero_add _).le⟩
    | succ i ih =>
      intro hi
      obtain ⟨hinv, hle⟩ := ih (Nat.le_of_succ_le hi)
      obtain ⟨hinv', hlt⟩ := hstep _ _ hinv (hrun i hi)
      exact ⟨hinv', by omega⟩
  have hlast := (hsum n le_rfl).2
  omega

end Transition
