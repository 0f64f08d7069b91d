import Mathlib.Data.Int.CardIntervalMod
import Mathlib.Tactic

/-!
# Taking turns

A `Rotation` chooses among the numbers below `n` in turn: it counts up to `n` and starts over.
It comes with its history, the choices made so far, and two fields say that the `k`-th choice is
the remainder of `k` and that the next one continues from there.  No number is then ahead of
another by more than one choice (`count_le_succ`).
-/

structure Rotation (n : ℕ) where
  chosen : List ℕ
  position : ℕ
  position_eq : position = chosen.length % n
  chosen_eq : chosen = (List.range chosen.length).map (· % n)

namespace Rotation

variable {n : ℕ}

def init (n : ℕ) : Rotation n := ⟨[], 0, rfl, rfl⟩

/-- The position behind another. -/
def succ (n position : ℕ) : ℕ := if position + 1 ≥ n then 0 else position + 1

lemma succ_mod (hn : 0 < n) (k : ℕ) : succ n (k % n) = (k + 1) % n := by
  have hlt := Nat.mod_lt k hn
  have hmod : (k % n + 1) % n = (k + 1) % n := Nat.mod_add_mod k n 1
  rw [← hmod, succ]
  split_ifs with hlast
  · obtain heq : k % n + 1 = n := by omega
    rw [heq, Nat.mod_self]
  · exact (Nat.mod_eq_of_lt (by omega)).symm

/-- Choose the number at the position, and go to the next. -/
def choose (r : Rotation n) (hn : 0 < n) : Rotation n where
  chosen := r.chosen ++ [r.position]
  position := succ n r.position
  position_eq := by
    rw [r.position_eq, succ_mod hn, List.length_append, List.length_singleton]
  chosen_eq := by
    rw [List.length_append, List.length_singleton, List.range_succ, List.map_append,
      ← r.chosen_eq, List.map_singleton, ← r.position_eq]

lemma getElem?_chosen (r : Rotation n) {k p : ℕ} (h : r.chosen[k]? = some p) : p = k % n := by
  have hlt : k < r.chosen.length := (List.getElem?_eq_some_iff.1 h).1
  rw [r.chosen_eq, List.getElem?_map, List.getElem?_range hlt] at h
  exact (Option.some.inj h).symm

/-- How often a number has been chosen. -/
lemma count_chosen (r : Rotation n) {p : ℕ} (hp : p < n) :
    r.chosen.count p = r.chosen.length / n + if p < r.chosen.length % n then 1 else 0 := by
  have hcount := Nat.count_modEq_card r.chosen.length (show 0 < n by omega) p
  rw [Nat.mod_eq_of_lt hp] at hcount
  rw [← hcount, Nat.count]
  conv_lhs => rw [r.chosen_eq, List.count, List.countP_map]
  apply List.countP_congr
  intro k _
  have hmod : p % n = p := Nat.mod_eq_of_lt hp
  simp [Nat.ModEq, hmod]

/-- No number is ahead of another by more than one. -/
lemma count_le_succ (r : Rotation n) {p q : ℕ} (hp : p < n) (hq : q < n) :
    r.chosen.count p ≤ r.chosen.count q + 1 := by
  rw [r.count_chosen hp, r.count_chosen hq]
  split_ifs <;> omega

end Rotation
