import CPYuZe.ConnectionPool.Pool

/-!
# Consumers that wait for a connection

A consumer goes to sleep in `wait_for` when it finds the queue empty.  Two activities put a
connection into the queue: the producer, which notifies everybody before it gives the lock back,
and the deleter of a `shared_ptr`, which notifies nobody.  `keepsPromise_iff` says that this is
the only way to leave a consumer asleep next to an idle connection: a connection put back into an
empty queue while somebody sleeps.
-/

namespace ConnectionPool

variable {cfg : Config} {s s' : Pool}

/-- A connection is idle and a consumer asleep, and nobody has notified it. -/
structure Stranded (s : Pool) : Prop where
  idle : s.connectionQue ≠ []
  asleep : ∃ thread, s.consumer thread = .asleep
  unnotified : s.notified = false

/-- The step does not make the queue non-empty, or it leaves no consumer asleep. -/
def WakesWaiters (s s' : Pool) : Prop :=
  s.connectionQue = [] → s'.connectionQue ≠ [] → ∀ thread, s'.consumer thread ≠ .asleep

/-- The next step strands nobody, and wakes the waiters if it has something for them. -/
def KeepsPromise (cfg : Config) (s : Pool) (op : Op) : Prop :=
  ∀ s', step cfg s op = .returned s' → ¬ Stranded s' ∧ WakesWaiters s s'

/-- A connection is put back only if others are idle or nobody sleeps. -/
def ReturnsUnawaited (s : Pool) : Op → Prop
  | .release _ _ => s.connectionQue = [] → ∀ thread, s.consumer thread ≠ .asleep
  | .getconnection _ | .wakeUp _ | .resume _ _ | .produce _ | .wakeProducer | .scan _ => True

/-- Nobody sleeps next to an idle connection. -/
def Attentive (s : Pool) : Prop :=
  s.connectionQue ≠ [] → ∀ thread, s.consumer thread ≠ .asleep

lemma notifyAll_awake (s : Pool) (thread : ℕ) : s.notifyAll.consumer thread ≠ .asleep := by
  have hawake : wakeConsumer (s.notifyAll.consumer thread) = none := by
    refine CondVar.notifyAll_awake (fun p p' h => ?_) thread
    cases p <;> cases h
    rfl
  intro hasleep
  rw [hasleep] at hawake
  exact Option.some_ne_none _ hawake

namespace Attentive

lemma not_stranded (h : Attentive s) : ¬ Stranded s := by
  intro hs
  obtain ⟨thread, hthread⟩ := hs.asleep
  exact h hs.idle thread hthread

lemma notifyAll (s : Pool) : Attentive s.notifyAll := fun _ thread => notifyAll_awake s thread

lemma of_nil (h : s.connectionQue = []) : Attentive s := fun hne => absurd h hne

/-- Nobody goes to sleep, and the queue was not empty before. -/
lemma of_consumer (h : Attentive s) (hque : s'.connectionQue ≠ [] → s.connectionQue ≠ [])
    (hconsumer : ∀ thread, s'.consumer thread = .asleep → s.consumer thread = .asleep) :
    Attentive s' :=
  fun hne thread hasleep => h (hque hne) thread (hconsumer thread hasleep)

/-- A consumer that is awake somewhere else. -/
lemma setConsumer (h : Attentive s) (thread : ℕ) {pc : ConsumerPc} (hpc : pc ≠ .asleep) :
    Attentive (s.setConsumer thread pc) := by
  refine h.of_consumer id fun other hother => ?_
  have hupdate : Function.update s.consumer thread pc other = .asleep := hother
  by_cases hne : other = thread
  · rw [hne, Function.update_self] at hupdate
    exact absurd hupdate hpc
  · rw [Function.update_of_ne hne] at hupdate
    exact hupdate

lemma getconnection (h : Attentive s) (thread : ℕ) (status : Option CvStatus) :
    Attentive (s.getconnection thread status) := by
  rcases s.getconnection_cases thread status with ⟨conn, rest, -, heq⟩ | ⟨-, heq⟩ | ⟨hque, heq⟩ <;>
    rw [heq]
  · exact notifyAll _
  · exact h.setConsumer thread (by simp)
  · exact of_nil hque

lemma scan (h : Attentive s) {readings : List ℤ}
    (hscan : s.scanConnectionTask cfg readings = .returned s') : Attentive s' := by
  refine Pool.scanConnectionTask_preserves Attentive (fun s _ hs => ?_)
    (fun s p rest _ hs hque => ?_) h hscan
  · exact hs.of_consumer id fun _ => id
  · refine hs.of_consumer (fun _ => ?_) fun _ => id
    rw [hque]
    exact List.cons_ne_nil p rest

/-- A step that puts nothing back strands nobody. -/
lemma step (h : Attentive s) {op : Op} (hop : ReturnsUnawaited s op)
    (hstep : step cfg s op = .returned s') : Attentive s' := by
  cases op with
  | getconnection thread =>
    cases hstep
    exact h.getconnection thread _
  | wakeUp thread =>
    cases hstep
    exact h.setConsumer thread (by simp)
  | resume thread status =>
    cases hstep
    exact h.getconnection thread _
  | release pcon t =>
    cases hstep
    intro _ thread
    by_cases hque : s.connectionQue = []
    · exact hop hque thread
    · exact h hque thread
  | produce connect =>
    cases hstep
    rcases Pool.produceConnectionTask_cases cfg s connect with
      ⟨-, heq⟩ | ⟨-, -, heq⟩ | ⟨-, heq⟩ <;> rw [heq]
    · exact h.of_consumer id fun _ => id
    · exact notifyAll _
    · exact notifyAll _
  | wakeProducer =>
    cases hstep
    exact h.of_consumer id fun _ => id
  | scan readings => exact h.scan hstep

/-- Nobody has called `getconnection` when the constructor is done. -/
lemma init {initSize : ℕ} (connects : Fin initSize → Option ℤ) :
    Attentive (Pool.init connects) := by
  have hconsumer : ∀ (connects : List (Option ℤ)) (s : Pool),
      (connects.foldl Pool.newConnection s).consumer = s.consumer := by
    intro connects
    induction connects with
    | nil => exact fun _ => rfl
    | cons connect connects ih =>
      intro s
      rw [List.foldl_cons, ih]
      cases connect <;> rfl
  intro _ thread
  rw [Pool.init, hconsumer]
  exact ConsumerPc.noConfusion

end Attentive

lemma keepsPromise_iff_returnsUnawaited (h : Attentive s) (op : Op) :
    KeepsPromise cfg s op ↔ ReturnsUnawaited s op := by
  constructor
  · intro hkeeps
    cases op with
    | release pcon t =>
      intro hque
      have hpush : (s.deleter pcon t).connectionQue ≠ [] :=
        List.append_ne_nil_of_right_ne_nil _ (List.cons_ne_nil _ _)
      exact (hkeeps _ rfl).2 hque hpush
    | _ => trivial
  · intro hop s' hstep
    have hs' : Attentive s' := h.step hop hstep
    exact ⟨hs'.not_stranded, fun _ => hs'⟩

/-- No state of a run strands a consumer, and every step that makes the queue non-empty wakes the
waiters, exactly if nothing is put back into an empty queue while somebody sleeps. -/
theorem keepsPromise_iff (connects : Fin cfg.initSize → Option ℤ) (ops : List Op) :
    (¬ Stranded (Pool.init connects) ∧
      Outcome.Throughout (step cfg) (KeepsPromise cfg) (Pool.init connects) ops) ↔
    Outcome.Throughout (step cfg) ReturnsUnawaited (Pool.init connects) ops := by
  have hinit : Attentive (Pool.init connects) := Attentive.init connects
  rw [and_iff_right hinit.not_stranded]
  refine Outcome.throughout_iff (fun s op hs => keepsPromise_iff_returnsUnawaited hs op)
    (fun s op s' hs hkeeps hstep => ?_) hinit
  exact hs.step ((keepsPromise_iff_returnsUnawaited hs op).1 hkeeps) hstep

/-- One connection of ten could be made.  A thread takes it, another one waits for a connection,
and the first one gives it back. -/
theorem not_keepsPromise_release : ∃ (connects : Fin 10 → Option ℤ) (ops : List Op),
    Outcome.Throughout (step {}) Possible (Pool.init connects) ops ∧
    ¬ Outcome.Throughout (step {}) (KeepsPromise {}) (Pool.init connects) ops := by
  refine ⟨fun i => if i = 0 then some 0 else none, [.getconnection 0, .getconnection 1,
    .release 0 0], ?_, fun hkeeps => ?_⟩
  · refine (Outcome.throughout_cons_returned rfl _).2 ⟨rfl, ?_⟩
    refine (Outcome.throughout_cons_returned rfl _).2 ⟨rfl, ?_⟩
    exact (Outcome.throughout_cons_returned rfl _).2 ⟨List.mem_cons_self, trivial⟩
  · have htail := (hkeeps.2 _ rfl).2 _ rfl
    exact (htail.1 _ rfl).1 ⟨List.cons_ne_nil _ _, ⟨1, rfl⟩, rfl⟩

end ConnectionPool
