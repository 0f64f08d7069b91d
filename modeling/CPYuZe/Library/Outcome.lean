import Mathlib.Logic.Relation
import Mathlib.Tactic

/-!
# Outcomes of calls and of loops

A C call can do three things: return a value, go wrong in a way the language does not
define or the program does not survive, or never come back.  `Outcome φ α` records the
first two, with `φ` the type of faults, and adds `running` for a call that has not come
back within the step budget it was given.

`Outcome.loop` is the `while` loop under a budget, and a loop *diverges* when no budget is
enough (`Diverges`).  The rule for proving divergence is `diverges_of_next`: a body that goes
round again without changing its state never comes back.

`Outcome.run` carries a state through a list of calls, and `Throughout` says that something
holds of every call of the list when its turn comes.  Two such properties that agree on every
state with an invariant agree on runs (`throughout_iff`), which is how a condition on the calls
of a run is shown to be exactly what a property of the run needs.
-/

/-- What a call does: it returns, it goes wrong, or it is still running when the step budget
is used up. -/
inductive Outcome (φ : Type*) (α : Type*)
  /-- The call returned a value. -/
  | returned (a : α)
  /-- The call went wrong. -/
  | faulted (f : φ)
  /-- The budget ran out first. -/
  | running
  deriving DecidableEq, Repr

namespace Outcome

variable {φ α β σ ε : Type*}

/-- Sequencing: a call that does not return keeps what follows from running. -/
protected def bind (x : Outcome φ α) (f : α → Outcome φ β) : Outcome φ β :=
  match x with
  | returned a => f a
  | faulted e => faulted e
  | running => running

instance : Monad (Outcome φ) where
  pure := returned
  bind := Outcome.bind

@[simp] lemma pure_eq (a : α) : (pure a : Outcome φ α) = returned a := rfl

section Bind

universe u v

variable {φ : Type u} {α β : Type v} {f : α → Outcome φ β}

@[simp] lemma returned_bind (a : α) : (returned a : Outcome φ α) >>= f = f a := rfl

@[simp] lemma faulted_bind (e : φ) : (faulted e : Outcome φ α) >>= f = faulted e := rfl

@[simp] lemma running_bind : (running : Outcome φ α) >>= f = running := rfl

lemma bind_bind {γ : Type v} {x : Outcome φ α} {g : β → Outcome φ γ} :
    x >>= f >>= g = x >>= fun a => f a >>= g := by
  cases x <;> rfl

lemma bind_ne_running {x : Outcome φ α} (hx : x ≠ running) (hf : ∀ a, f a ≠ running) :
    x >>= f ≠ running := by
  cases x with
  | returned a => exact hf a
  | faulted e => exact fun h => nomatch h
  | running => exact absurd rfl hx

/-- A sequence returns exactly when both of its parts do. -/
lemma bind_eq_returned {x : Outcome φ α} {b : β} :
    x >>= f = returned b ↔ ∃ a, x = returned a ∧ f a = returned b := by
  cases x <;> simp

end Bind

/-! ## Loops -/

/-- One evaluation of a loop's condition and body: leave with a result, or go round again. -/
inductive Turn (σ : Type*) (α : Type*)
  /-- The loop is left. -/
  | done (a : α)
  /-- The loop goes round again. -/
  | next (s : σ)
  deriving DecidableEq, Repr

/-- The loop that evaluates `body` at most `n` times. -/
def loop (body : σ → Outcome φ (Turn σ α)) : ℕ → σ → Outcome φ α
  | 0, _ => running
  | n + 1, s =>
    match body s with
    | returned (.done a) => returned a
    | returned (.next s') => loop body n s'
    | faulted e => faulted e
    | running => running

/-- No budget is enough. -/
def Diverges (body : σ → Outcome φ (Turn σ α)) (s : σ) : Prop :=
  ∀ n, loop body n s = running

section Loop

variable {body : σ → Outcome φ (Turn σ α)} {s s' : σ}

@[simp] lemma loop_zero : loop body 0 s = running := rfl

lemma loop_done {a : α} (h : body s = returned (.done a)) (n : ℕ) :
    loop body (n + 1) s = returned a := by
  simp [loop, h]

lemma loop_next (h : body s = returned (.next s')) (n : ℕ) :
    loop body (n + 1) s = loop body n s' := by
  simp [loop, h]

/-- A larger budget does not change a loop that has ended. -/
lemma loop_mono {m n : ℕ} (hmn : m ≤ n) (hm : loop body m s ≠ running) :
    loop body n s = loop body m s := by
  induction m generalizing n s with
  | zero => exact absurd rfl hm
  | succ m ih =>
    obtain ⟨n, rfl⟩ : ∃ k, n = k + 1 := ⟨n - 1, by omega⟩
    cases hb : body s with
    | returned t =>
      cases t with
      | done a => rw [loop_done hb, loop_done hb]
      | next s₁ =>
        rw [loop_next hb] at hm
        rw [loop_next hb, loop_next hb]
        exact ih (by omega) hm
    | faulted e => simp [loop, hb]
    | running => simp [loop, hb]

lemma loop_of_le {m n : ℕ} (hmn : m ≤ n) {a : α} (h : loop body m s = returned a) :
    loop body n s = returned a :=
  (loop_mono hmn (by simp [h])).trans h

/-- One turn of the loop. -/
def TurnsTo (body : σ → Outcome φ (Turn σ α)) (s s' : σ) : Prop := body s = returned (.next s')

/-- The turns that lead to a state can be added to a budget. -/
lemma loop_of_reaches (h : Relation.ReflTransGen (TurnsTo body) s s') :
    ∃ k, ∀ n, loop body (n + k) s = loop body n s' := by
  induction h using Relation.ReflTransGen.head_induction_on with
  | refl => exact ⟨0, fun n => rfl⟩
  | head hturn _ ih =>
    obtain ⟨k, hk⟩ := ih
    exact ⟨k + 1, fun n => (loop_next hturn (n + k)).trans (hk n)⟩

/-- A loop that comes back has gone through turns to the one that leaves it. -/
lemma exists_reaches_of_loop {n : ℕ} {a : α} (h : loop body n s = returned a) :
    ∃ s₁, Relation.ReflTransGen (TurnsTo body) s s₁ ∧ body s₁ = returned (.done a) := by
  induction n generalizing s with
  | zero => cases h
  | succ n ih =>
    cases hb : body s with
    | faulted e => simp [loop, hb] at h
    | running => simp [loop, hb] at h
    | returned turn =>
      cases turn with
      | next s' =>
        rw [loop_next hb] at h
        obtain ⟨s₁, hreach, hdone⟩ := ih h
        exact ⟨s₁, .head hb hreach, hdone⟩
      | done a' =>
        rw [loop_done hb] at h
        cases h
        exact ⟨s, .refl, hb⟩

/-- A body that goes round again in the same state never comes back. -/
lemma diverges_of_next (h : body s = returned (.next s)) : Diverges body s := by
  intro n
  induction n with
  | zero => rfl
  | succ n ih => rw [loop_next h, ih]

/-- One turn earlier, the loop still diverges. -/
lemma Diverges.of_next (h : body s = returned (.next s')) (hs' : Diverges body s') :
    Diverges body s := by
  intro n
  cases n with
  | zero => rfl
  | succ n => rw [loop_next h, hs' n]

/-- The loop goes wrong, or it never comes back. -/
def NeverReturns (body : σ → Outcome φ (Turn σ α)) (s : σ) : Prop :=
  ∀ n a, loop body n s ≠ returned a

lemma Diverges.neverReturns (h : Diverges body s) : NeverReturns body s := by
  intro n a
  rw [h n]
  exact fun h => nomatch h

/-- A body that goes wrong does not come back. -/
lemma neverReturns_of_faulted {e : φ} (h : body s = faulted e) : NeverReturns body s := by
  intro n a
  cases n with
  | zero => exact fun h => nomatch h
  | succ n => simp [loop, h]

/-- One turn earlier, the loop still does not come back. -/
lemma NeverReturns.of_next (h : body s = returned (.next s')) (hs' : NeverReturns body s') :
    NeverReturns body s := by
  intro n a
  cases n with
  | zero => exact fun h => nomatch h
  | succ n =>
    rw [loop_next h]
    exact hs' n a

end Loop

/-! ## Runs -/

/-- Carry a state through a list of calls, up to the first that does not return. -/
def run (step : σ → ε → Outcome φ σ) : σ → List ε → Outcome φ σ
  | s, [] => returned s
  | s, e :: es =>
    match step s e with
    | returned s' => run step s' es
    | faulted f => faulted f
    | running => running

section Run

variable {step : σ → ε → Outcome φ σ} {s s' : σ}

@[simp] lemma run_nil : run step s [] = returned s := rfl

lemma run_cons_returned {e : ε} (h : step s e = returned s') (es : List ε) :
    run step s (e :: es) = run step s' es := by
  simp [run, h]

/-- The first call of a run that returns has returned. -/
lemma run_cons_eq_returned {e : ε} {es : List ε} :
    run step s (e :: es) = returned s' ↔
      ∃ s₁, step s e = returned s₁ ∧ run step s₁ es = returned s' := by
  simp only [run]
  cases step s e <;> simp

lemma run_cons (e : ε) (es : List ε) :
    run step s (e :: es) = (step s e).bind fun s' => run step s' es := by
  simp only [run]
  cases step s e <;> rfl

lemma run_singleton (e : ε) : run step s [e] = step s e := by
  rw [run_cons]
  cases step s e <;> rfl

/-- A run through one list and then another. -/
lemma run_append_eq (es es' : List ε) :
    run step s (es ++ es') = (run step s es).bind fun s' => run step s' es' := by
  induction es generalizing s with
  | nil => rfl
  | cons e es ih =>
    rw [List.cons_append, run_cons, run_cons]
    cases step s e with
    | returned s' => exact ih
    | faulted f => rfl
    | running => rfl

/-- A run through lists one after the other. -/
lemma run_flatMap {ι : Type*} (g : ι → List ε) (is : List ι) :
    run step s (is.flatMap g) = run (fun s i => run step s (g i)) s is := by
  induction is generalizing s with
  | nil => rfl
  | cons i is ih =>
    rw [List.flatMap_cons, run_append_eq, run_cons]
    exact congrArg _ (funext fun _ => ih)

lemma run_append {es : List ε} (h : run step s es = returned s') (es' : List ε) :
    run step s (es ++ es') = run step s' es' := by
  induction es generalizing s with
  | nil =>
    obtain rfl : s = s' := returned.inj h
    rfl
  | cons e es ih =>
    obtain ⟨s₁, h₁, h₂⟩ := run_cons_eq_returned.1 h
    rw [List.cons_append, run_cons_returned h₁]
    exact ih h₂

/-- What every call preserves, a run preserves. -/
lemma run_preserves (inv : σ → Prop) {es : List ε}
    (hinv : ∀ s e s', inv s → step s e = returned s' → inv s') (hs : inv s)
    (h : run step s es = returned s') : inv s' := by
  induction es generalizing s with
  | nil => cases h; exact hs
  | cons e es ih =>
    obtain ⟨s₁, h₁, h₂⟩ := run_cons_eq_returned.1 h
    exact ih (hinv s e s₁ hs h₁) h₂

/-! ## Properties of every call of a run -/

/-- `p` holds of every call of the run, in the state in which its turn comes. -/
def Throughout (step : σ → ε → Outcome φ σ) (p : σ → ε → Prop) : σ → List ε → Prop
  | _, [] => True
  | s, e :: es => p s e ∧ ∀ s', step s e = returned s' → Throughout step p s' es

variable {p q : σ → ε → Prop} {inv : σ → Prop} {es : List ε}

lemma throughout_cons_returned {e : ε} (h : step s e = returned s') (es : List ε) :
    Throughout step p s (e :: es) ↔ p s e ∧ Throughout step p s' es := by
  simp [Throughout, h]

/-- Properties that agree under an invariant the calls preserve agree on whole runs. -/
lemma throughout_iff
    (hpq : ∀ s e, inv s → (p s e ↔ q s e))
    (hinv : ∀ s e s', inv s → p s e → step s e = returned s' → inv s') (hs : inv s) :
    Throughout step p s es ↔ Throughout step q s es := by
  induction es generalizing s with
  | nil => exact Iff.rfl
  | cons e es ih =>
    constructor
    · rintro ⟨he, hes⟩
      exact ⟨(hpq s e hs).1 he, fun s' h => (ih (hinv s e s' hs he h)).1 (hes s' h)⟩
    · rintro ⟨he, hes⟩
      have hp := (hpq s e hs).2 he
      exact ⟨hp, fun s' h => (ih (hinv s e s' hs hp h)).2 (hes s' h)⟩

/-- What holds of a call in every state holds of it in a run. -/
lemma throughout_of_forall (h : ∀ e ∈ es, ∀ s, p s e) : Throughout step p s es := by
  induction es generalizing s with
  | nil => trivial
  | cons e es ih =>
    exact ⟨h e List.mem_cons_self s,
      fun s' _ => ih fun e' he' => h e' (List.mem_cons_of_mem e he')⟩

/-- What follows from an invariant that the calls preserve holds of every call. -/
lemma throughout_of_inv (inv : σ → Prop) (hp : ∀ s e, inv s → p s e)
    (hinv : ∀ s e s', inv s → step s e = returned s' → inv s') (hs : inv s) :
    Throughout step p s es := by
  induction es generalizing s with
  | nil => trivial
  | cons e es ih => exact ⟨hp s e hs, fun s' hs' => ih (hinv s e s' hs hs')⟩

lemma throughout_append {es' : List ε} :
    Throughout step p s (es ++ es') ↔
      Throughout step p s es ∧ ∀ s', run step s es = returned s' → Throughout step p s' es' := by
  induction es generalizing s with
  | nil => simp [Throughout]
  | cons e es ih =>
    simp only [List.cons_append, Throughout, ih, run_cons_eq_returned]
    constructor
    · rintro ⟨he, hes⟩
      exact ⟨⟨he, fun s₁ h₁ => (hes s₁ h₁).1⟩, fun s' ⟨s₁, h₁, h₂⟩ => (hes s₁ h₁).2 s' h₂⟩
    · rintro ⟨⟨he, hes⟩, hes'⟩
      exact ⟨he, fun s₁ h₁ => ⟨hes s₁ h₁, fun s' h₂ => hes' s' ⟨s₁, h₁, h₂⟩⟩⟩

/-- A property of every call holds of the last one. -/
lemma Throughout.last {e : ε} (h : Throughout step p s (es ++ [e]))
    (hrun : run step s es = returned s') : p s' e :=
  ((throughout_append.1 h).2 s' hrun).1

/-- What follows from a property of every call and an invariant they preserve holds of every
call. -/
lemma Throughout.imp (h : Throughout step p s es) (inv : σ → Prop)
    (hpq : ∀ s e, inv s → p s e → q s e)
    (hinv : ∀ s e s', inv s → p s e → step s e = returned s' → inv s')
    (hs : inv s) : Throughout step q s es := by
  induction es generalizing s with
  | nil => trivial
  | cons e es ih =>
    exact ⟨hpq s e hs h.1, fun s' hs' => ih (h.2 s' hs') (hinv s e s' hs h.1 hs')⟩

lemma Throughout.and (hp : Throughout step p s es) (hq : Throughout step q s es) :
    Throughout step (fun s e => p s e ∧ q s e) s es := by
  induction es generalizing s with
  | nil => trivial
  | cons e es ih => exact ⟨⟨hp.1, hq.1⟩, fun s' hs' => ih (hp.2 s' hs') (hq.2 s' hs')⟩

/-- Properties of calls that keep to `l` agree on runs when they agree on every state with an
invariant these calls preserve. -/
lemma Throughout.iff {l : σ → ε → Prop} (hl : Throughout step l s es)
    (hpq : ∀ s e, inv s → l s e → (p s e ↔ q s e))
    (hinv : ∀ s e s', inv s → l s e → p s e → step s e = returned s' → inv s') (hs : inv s) :
    Throughout step p s es ↔ Throughout step q s es := by
  have hboth : Throughout step (fun s e => l s e ∧ p s e) s es ↔
      Throughout step (fun s e => l s e ∧ q s e) s es := by
    refine throughout_iff (fun s e h => ?_) (fun s e s' h he => hinv s e s' h he.1 he.2) hs
    exact and_congr_right (hpq s e h)
  have hright : ∀ r : σ → ε → Prop, Throughout step (fun s e => l s e ∧ r s e) s es →
      Throughout step r s es :=
    fun r h => h.imp (fun _ => True) (fun _ _ _ h => h.2) (fun _ _ _ _ _ _ => trivial) trivial
  exact ⟨fun h => hright q (hboth.1 (hl.and h)), fun h => hright p (hboth.2 (hl.and h))⟩

/-- What every call with `p` preserves, a run of such calls preserves. -/
lemma Throughout.preserves (hp : Throughout step p s es) (inv : σ → Prop)
    (hinv : ∀ s e s', inv s → p s e → step s e = returned s' → inv s')
    (hs : inv s) (h : run step s es = returned s') : inv s' := by
  induction es generalizing s with
  | nil => cases h; exact hs
  | cons e es ih =>
    obtain ⟨s₁, h₁, h₂⟩ := run_cons_eq_returned.1 h
    exact ih (hp.2 s₁ h₁) (hinv s e s₁ hs hp.1 h₁) h₂

end Run

end Outcome
