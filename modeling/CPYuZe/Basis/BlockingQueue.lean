import CPYuZe.Library.CondVar
import CPYuZe.Library.Transition

/-!
# The blocking queue

`Push` puts an element into the queue and notifies one consumer, both under the lock; the two
overloads do the same.  `Get` waits for the queue to be non-empty and takes the first element.

A step of `Step` is a `Push`, or what a `Get` does from taking the lock to giving it back, at the
end or in `m_Cv.wait`, or the end of a wait for no reason.  A consumer that has been notified may
find the queue empty when it gets the lock, since another one may have come first, and goes to
sleep again.

`delivers` says that nothing is lost, doubled or overtaken, and that there are enough consumers on
their way to the queue at any time.
-/

namespace BlockingQueue

/-- Where a consumer is. -/
inductive ConsumerPc
  | outside
  /-- It is in `m_Cv.wait`. -/
  | asleep
  /-- It has been notified and has not looked at the queue since. -/
  | notified
  /-- Its wait is over for no reason. -/
  | awake
  deriving DecidableEq

/-- The data of a queue, where its consumers are, and what has happened to the elements. -/
structure Queue (ι T : Type*) where
  queue : List T
  consumer : ι → ConsumerPc
  /-- The elements in the order of the calls of `Push`. -/
  pushed : List T
  /-- The elements in the order in which `Get` has taken them. -/
  got : List T

variable {ι T : Type*} [DecidableEq ι]

def init : Queue ι T := ⟨[], fun _ => .outside, [], []⟩

def wake : ConsumerPc → Option ConsumerPc
  | .asleep => some .notified
  | .outside | .notified | .awake => none

/-- What `Get` does when it has the lock: it waits, or it takes an element and returns. -/
def Queue.get (s : Queue ι T) (i : ι) : Queue ι T :=
  match s.queue with
  | [] => { s with consumer := Function.update s.consumer i .asleep }
  | data :: rest =>
    { s with
      queue := rest
      consumer := Function.update s.consumer i .outside
      got := s.got ++ [data] }

inductive Step : Queue ι T → Queue ι T → Prop
  | push {s : Queue ι T} {consumer : ι → ConsumerPc} (task : T) :
      CondVar.NotifyOne wake s.consumer consumer →
      Step s { s with
        queue := s.queue ++ [task], consumer := consumer, pushed := s.pushed ++ [task] }
  /-- A consumer calls `Get`, or it has been in `wait` and gets the lock again. -/
  | get {s : Queue ι T} {i : ι} : s.consumer i ≠ .asleep → Step s (s.get i)
  | spurious {s : Queue ι T} {i : ι} :
      s.consumer i = .asleep →
      Step s { s with consumer := Function.update s.consumer i .awake }

variable [Fintype ι] {s s' : Queue ι T} {i : ι}

/-- The number of consumers that are there. -/
def count (consumer : ι → ConsumerPc) (pc : ConsumerPc) : ℕ :=
  (Finset.univ.filter fun i => consumer i = pc).card

lemma count_update (consumer : ι → ConsumerPc) (i : ι) (p pc : ConsumerPc) :
    count (Function.update consumer i p) pc + (if consumer i = pc then 1 else 0) =
      count consumer pc + if p = pc then 1 else 0 :=
  CondVar.card_update (fun q => q = pc) consumer i p

/-- What has been got is the first part of what has been pushed, the rest is in the queue, and the
consumers that are on their way to it are enough for the elements or are all there are. -/
structure Delivers (s : Queue ι T) : Prop where
  inOrder : s.got ++ s.queue = s.pushed
  notified : min s.queue.length (count s.consumer .asleep + count s.consumer .notified) ≤
    count s.consumer .notified

namespace Delivers

omit [DecidableEq ι] in
lemma init : Delivers (init : Queue ι T) where
  inOrder := rfl
  notified := (min_le_left _ _).trans (Nat.zero_le _)

/-- One more consumer is on its way, or nobody sleeps. -/
lemma push (h : Delivers s) {consumer : ι → ConsumerPc} (task : T)
    (hnotify : CondVar.NotifyOne wake s.consumer consumer) :
    Delivers { s with
      queue := s.queue ++ [task], consumer := consumer, pushed := s.pushed ++ [task] } where
  inOrder := by
    show s.got ++ (s.queue ++ [task]) = s.pushed ++ [task]
    rw [← List.append_assoc, h.inOrder]
  notified := by
    have hnotified := h.notified
    show min (s.queue ++ [task]).length (count consumer .asleep + count consumer .notified) ≤
      count consumer .notified
    rw [List.length_append, List.length_singleton]
    cases hnotify with
    | nobody hall =>
      have hasleep : count s.consumer .asleep = 0 := by
        refine Finset.card_eq_zero.2 (Finset.filter_eq_empty_iff.2 fun j _ hj => ?_)
        have hnone := hall j
        rw [hj] at hnone
        exact Option.some_ne_none _ hnone
      omega
    | @wakes j p hp =>
      have hj : s.consumer j = .asleep ∧ p = .notified := by
        cases hpc : s.consumer j <;> rw [hpc] at hp <;> cases hp
        exact ⟨rfl, rfl⟩
      have hfewer := count_update s.consumer j p .asleep
      have hmore := count_update s.consumer j p .notified
      rw [hj.1] at hfewer hmore
      simp only [hj.2, if_true, reduceCtorEq, if_false] at hfewer hmore ⊢
      omega

/-- It goes to sleep in front of an empty queue, where nobody needs to be on the way. -/
lemma get_nil (h : Delivers s) (i : ι) (hqueue : s.queue = []) : Delivers (s.get i) := by
  have hget : s.get i = { s with consumer := Function.update s.consumer i .asleep } := by
    simp only [Queue.get, hqueue]
  rw [hget]
  refine ⟨h.inOrder, ?_⟩
  show min s.queue.length _ ≤ _
  rw [hqueue]
  exact (min_le_left _ _).trans (Nat.zero_le _)

/-- It takes an element, and is not on its way any more if it was. -/
lemma get_cons (h : Delivers s) (hi : s.consumer i ≠ .asleep) {data : T} {rest : List T}
    (hqueue : s.queue = data :: rest) : Delivers (s.get i) := by
  have hget : s.get i = { s with
      queue := rest
      consumer := Function.update s.consumer i .outside
      got := s.got ++ [data] } := by
    simp only [Queue.get, hqueue]
  have hinOrder := h.inOrder
  have hnotified := h.notified
  rw [hqueue] at hinOrder hnotified
  rw [hget]
  refine ⟨?_, ?_⟩
  · show s.got ++ [data] ++ rest = s.pushed
    rw [List.append_assoc]
    exact hinOrder
  · have hasleep := count_update s.consumer i .outside .asleep
    have hless := count_update s.consumer i .outside .notified
    show min rest.length (count (Function.update s.consumer i .outside) .asleep +
      count (Function.update s.consumer i .outside) .notified) ≤
        count (Function.update s.consumer i .outside) .notified
    rw [if_neg hi] at hasleep
    rw [List.length_cons] at hnotified
    simp only [reduceCtorEq, if_false] at hasleep hless
    split at hless <;> omega

lemma spurious (h : Delivers s) (hi : s.consumer i = .asleep) :
    Delivers { s with consumer := Function.update s.consumer i .awake } where
  inOrder := h.inOrder
  notified := by
    have hasleep := count_update s.consumer i .awake .asleep
    have hsame := count_update s.consumer i .awake .notified
    rw [hi] at hasleep hsame
    simp only [if_true, reduceCtorEq, if_false] at hasleep hsame
    have hnotified := h.notified
    show min s.queue.length (count (Function.update s.consumer i .awake) .asleep +
      count (Function.update s.consumer i .awake) .notified) ≤
      count (Function.update s.consumer i .awake) .notified
    omega

lemma step (h : Delivers s) (hstep : Step s s') : Delivers s' := by
  cases hstep with
  | push task hnotify => exact h.push task hnotify
  | @get i hi =>
    cases hqueue : s.queue with
    | nil => exact h.get_nil i hqueue
    | cons data rest => exact h.get_cons hi hqueue
  | spurious hi => exact h.spurious hi

end Delivers

/-- The queue delivers everything once and in order, whatever the threads do, and strands no
consumer. -/
theorem delivers (h : Relation.ReflTransGen Step init s) : Delivers s :=
  Transition.invariant Delivers Delivers.init (fun _ _ hs hstep => hs.step hstep) h

/-- Two consumers sleep, and one of them is notified of an element. -/
theorem delivers_push : ∃ s : Queue (Fin 2) ℕ, s.queue = [7] ∧ s.consumer 1 = .asleep ∧
    Delivers s := by
  refine ⟨_, ?_, ?_, delivers <| Relation.ReflTransGen.refl
    |>.tail (@Step.get _ ℕ _ _ 0 ConsumerPc.noConfusion)
    |>.tail (@Step.get _ ℕ _ _ 1 ConsumerPc.noConfusion)
    |>.tail (.push 7 (.wakes (i := 0) rfl))⟩
  · rfl
  · rfl

end BlockingQueue
