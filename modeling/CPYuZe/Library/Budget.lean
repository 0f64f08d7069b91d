import CPYuZe.Library.Outcome
import Mathlib.Order.Filter.AtTopBot.Basic

/-!
# Enough of a budget

A call that runs loops takes a step budget.  What it does when the budget is large enough is what
the program does (`Outcome.Settles`).  A loop settles on what its first turn decides, or on what it
settles on from the next state; calls in sequence settle one after the other; and a call settles on
one outcome only.

`Outcome.times` makes a call a number of times and collects what the calls return.
-/

namespace Outcome

universe u

variable {φ : Type u} {α β σ ρ : Type u}

/-- With enough of a budget the outcome of the call is `o`. -/
def Settles (call : ℕ → Outcome φ α) (o : Outcome φ α) : Prop :=
  ∀ᶠ budget in Filter.atTop, call budget = o

section Settles

variable {call : ℕ → Outcome φ α} {o o' : Outcome φ α}

lemma settles_const (o : Outcome φ α) : Settles (fun _ => o) o := .of_forall fun _ => rfl

lemma Settles.unique (h : Settles call o) (h' : Settles call o') : o = o' := by
  obtain ⟨budget, hbudget, hbudget'⟩ := (h.and h').exists
  exact hbudget.symm.trans hbudget'

/-- The smallest budget does not matter. -/
lemma settles_succ : Settles (fun n => call (n + 1)) o ↔ Settles call o := by
  have hshift : (∀ᶠ n in Filter.map (fun n => n + 1) Filter.atTop, call n = o) ↔
      ∀ᶠ n in Filter.atTop, call (n + 1) = o := Filter.eventually_map
  rw [Filter.map_add_atTop_eq_nat 1] at hshift
  exact hshift.symm

lemma Settles.bind {a : α} {f : ℕ → α → Outcome φ β} {o : Outcome φ β}
    (h : Settles call (returned a)) (hf : Settles (fun n => f n a) o) :
    Settles (fun n => call n >>= f n) o := by
  filter_upwards [h, hf] with budget hcall hnext
  rw [hcall, returned_bind, hnext]

end Settles

/-! ## Loops -/

section Loop

variable {body : σ → Outcome φ (Turn σ α)} {s s' : σ} {o : Outcome φ α}

lemma settles_done {a : α} (h : body s = returned (.done a)) :
    Settles (fun n => loop body n s) (returned a) :=
  settles_succ.1 (.of_forall fun n => loop_done h n)

lemma settles_faulted {e : φ} (h : body s = faulted e) :
    Settles (fun n => loop body n s) (faulted e) :=
  settles_succ.1 (.of_forall fun n => by simp [loop, h])

lemma settles_next (h : body s = returned (.next s')) :
    Settles (fun n => loop body n s) o ↔ Settles (fun n => loop body n s') o := by
  rw [← settles_succ]
  refine Filter.eventually_congr (.of_forall fun n => ?_)
  show loop body (n + 1) s = o ↔ loop body n s' = o
  rw [loop_next h]

/-- The first turn decides. -/
lemma settles_congr (h : body s = body s') :
    Settles (fun n => loop body n s) o ↔ Settles (fun n => loop body n s') o := by
  refine settles_succ.symm.trans (Iff.trans ?_ settles_succ)
  refine Filter.eventually_congr (.of_forall fun n => ?_)
  show loop body (n + 1) s = o ↔ loop body (n + 1) s' = o
  rw [loop, loop, h]

end Loop

/-! ## Bodies that have loops in them -/

section Bodies

variable {body : ℕ → σ → Outcome φ (Turn σ α)} {s s' : σ}

end Bodies

/-! ## Calls in a row -/

/-- `n` calls, with what they return. -/
def times (call : σ → Outcome φ (ρ × σ)) : ℕ → σ → Outcome φ (List ρ × σ)
  | 0, s => returned ([], s)
  | n + 1, s =>
    call s >>= fun first =>
    times call n first.2 >>= fun others =>
    returned (first.1 :: others.1, others.2)

section Times

variable {call : ℕ → σ → Outcome φ (ρ × σ)} {n : ℕ} {s s' s'' : σ} {r : ρ}

lemma settles_times_zero : Settles (fun b => times (call b) 0 s) (returned ([], s)) :=
  settles_const _

lemma settles_times_succ {rs : List ρ} (h : Settles (fun b => call b s) (returned (r, s')))
    (hrs : Settles (fun b => times (call b) n s') (returned (rs, s''))) :
    Settles (fun b => times (call b) (n + 1) s) (returned (r :: rs, s'')) :=
  h.bind (hrs.bind (settles_const _))

/-- What the calls behind the first one return. -/
lemma Settles.times_tail {results : List ρ}
    (h : Settles (fun b => times (call b) (n + 1) s) (returned (results, s'')))
    (hfirst : Settles (fun b => call b s) (returned (r, s'))) :
    results = r :: results.tail ∧
      Settles (fun b => times (call b) n s') (returned (results.tail, s'')) := by
  have hboth : ∀ᶠ b in Filter.atTop, ∃ rs, results = r :: rs ∧
      times (call b) n s' = returned (rs, s'') := by
    filter_upwards [h, hfirst] with b hb hb'
    rw [times, hb', returned_bind, bind_eq_returned] at hb
    obtain ⟨others, hothers, heq⟩ := hb
    obtain ⟨rfl, rfl⟩ := Prod.mk.inj (returned.inj heq)
    exact ⟨others.1, rfl, hothers⟩
  obtain ⟨b, rs, hresults, -⟩ := hboth.exists
  refine ⟨by rw [hresults, List.tail_cons], hboth.mono fun b ⟨rs, hrs, htimes⟩ => ?_⟩
  rw [hrs, List.tail_cons]
  exact htimes

end Times

end Outcome
