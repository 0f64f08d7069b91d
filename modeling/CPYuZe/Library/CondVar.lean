import Mathlib.Algebra.BigOperators.Pi
import Mathlib.Tactic

/-!
# Condition variables

The threads that share a condition variable are told apart by an index, and where each of them
is by a program counter.  One function on program counters says what the variable does to them:
`wake p` is where a thread asleep at `p` goes on once it is woken up, and `none` if a thread at
`p` is not asleep.  `NotifyOne` wakes one thread up if there is one asleep, whichever it is, and
`notifyAll` wakes all of them up.  A wake-up that nobody asked for is a step of the thread
itself.

What does not tell a sleeping thread from a woken one is kept by both (`NotifyOne.frame`,
`notifyAll_frame`).  What the threads have between them is a sum over the threads, and
`sum_update` says what the step of one thread does to it.
-/

namespace CondVar

variable {ι P γ : Type*} {wake : P → Option P} {pc pc' : ι → P}

/-- Where the threads are after `notify_one`. -/
inductive NotifyOne [DecidableEq ι] (wake : P → Option P) : (ι → P) → (ι → P) → Prop
  /-- Nobody is asleep, and the notification is lost. -/
  | nobody {pc : ι → P} : (∀ i, wake (pc i) = none) → NotifyOne wake pc pc
  | wakes {pc : ι → P} {i : ι} {p : P} :
      wake (pc i) = some p → NotifyOne wake pc (Function.update pc i p)

/-- Where the threads are after `notify_all`. -/
def notifyAll (wake : P → Option P) (pc : ι → P) : ι → P := fun i => (wake (pc i)).getD (pc i)

section Notify

lemma exists_notifyOne [DecidableEq ι] (wake : P → Option P) (pc : ι → P) :
    ∃ pc', NotifyOne wake pc pc' := by
  by_cases h : ∃ i p, wake (pc i) = some p
  · obtain ⟨i, p, hp⟩ := h
    exact ⟨_, .wakes hp⟩
  · refine ⟨pc, .nobody fun i => ?_⟩
    rw [Option.eq_none_iff_forall_ne_some]
    exact fun p hp => h ⟨i, p, hp⟩

/-- A property of program counters that waking up leaves alone. -/
lemma NotifyOne.frame [DecidableEq ι] (h : NotifyOne wake pc pc') (f : P → γ)
    (hf : ∀ p p', wake p = some p' → f p' = f p) (i : ι) : f (pc' i) = f (pc i) := by
  cases h with
  | nobody hall => rfl
  | @wakes j p hp =>
    by_cases hij : i = j
    · rw [hij, Function.update_self]
      exact hf _ _ hp
    · rw [Function.update_of_ne hij]

lemma notifyAll_frame (f : P → γ) (hf : ∀ p p', wake p = some p' → f p' = f p) (i : ι) :
    f (notifyAll wake pc i) = f (pc i) := by
  unfold notifyAll
  cases hp : wake (pc i) with
  | none => rfl
  | some p => exact hf _ _ hp

/-- A thread that is awake stays where it is. -/
lemma NotifyOne.of_awake [DecidableEq ι] (h : NotifyOne wake pc pc') {i : ι}
    (hi : wake (pc i) = none) : pc' i = pc i := by
  cases h with
  | nobody hall => rfl
  | @wakes j p hp =>
    have hij : i ≠ j := by
      rintro rfl
      exact absurd (hi.symm.trans hp) (Option.some_ne_none p).symm
    exact Function.update_of_ne hij _ _

/-- After a notification somebody is awake: the one woken up, or everybody. -/
lemma NotifyOne.exists_awake [DecidableEq ι] [Nonempty ι]
    (hw : ∀ p p', wake p = some p' → wake p' = none) (h : NotifyOne wake pc pc') :
    ∃ i, wake (pc' i) = none := by
  cases h with
  | nobody hall => exact ⟨Classical.arbitrary ι, hall _⟩
  | @wakes j p hp => exact ⟨j, by rw [Function.update_self]; exact hw _ _ hp⟩

lemma notifyAll_awake (hw : ∀ p p', wake p = some p' → wake p' = none) (i : ι) :
    wake (notifyAll wake pc i) = none := by
  unfold notifyAll
  cases hp : wake (pc i) with
  | none => exact hp
  | some p => exact hw _ _ hp

end Notify

section Sums

variable [Fintype ι] [DecidableEq ι] {M : Type*} [AddCommMonoid M]

/-- A thread that goes from `pc i` to `p` gives up what it had and gets what it has at `p`. -/
lemma sum_update (f : P → M) (pc : ι → P) (i : ι) (p : P) :
    ∑ j, f (Function.update pc i p j) + f (pc i) = ∑ j, f (pc j) + f p := by
  have hupdate : (fun j => f (Function.update pc i p j)) =
      Function.update (fun j => f (pc j)) i (f p) :=
    Function.comp_update f pc i p
  rw [hupdate, Finset.sum_update_of_mem (Finset.mem_univ i),
    ← Finset.sum_sdiff (Finset.singleton_subset_iff.2 (Finset.mem_univ i)),
    Finset.sum_singleton]
  abel

/-- How many threads are where `q` says, when one of them goes somewhere else. -/
lemma card_update (q : P → Prop) [DecidablePred q] (pc : ι → P) (i : ι) (p : P) :
    (Finset.univ.filter fun j => q (Function.update pc i p j)).card + (if q (pc i) then 1 else 0) =
      (Finset.univ.filter fun j => q (pc j)).card + if q p then 1 else 0 := by
  rw [Finset.card_filter, Finset.card_filter]
  exact sum_update (fun p => if q p then 1 else 0) pc i p

lemma NotifyOne.sum_frame (h : NotifyOne wake pc pc') (f : P → M)
    (hf : ∀ p p', wake p = some p' → f p' = f p) : ∑ i, f (pc' i) = ∑ i, f (pc i) :=
  Finset.sum_congr rfl fun i _ => h.frame f hf i

end Sums

end CondVar
